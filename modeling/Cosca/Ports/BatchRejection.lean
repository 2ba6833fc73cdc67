import Cosca.Ports.CommandRecord
import Cosca.Ports.WindowsPath
import Cosca.Verified.Utf16

/-!
# The batch-file check

`reject_batch_path` (`child/spawn.rs`) and `reject_batch_program`
(`child/spawn/windows_raw.rs`).  The check reads the textual extension of the
program: what stands behind the last dot of its last component, in any letter
case.

## Main results

* `rejected_iff`: the check catches exactly the names that end in `.bat` or
  `.cmd`, in any letter case, with something in front.
* `rejectBatchPath_error_iff`: it refuses exactly the programs whose last
  component is such a name (`PlainBatch`).
-/

namespace Cosca.Ports.BatchRejection

open Cosca.Ports.Errors
open Cosca.Ports.CommandRecord
open Cosca.Ports.WindowsCommandLine (Wide firstTokenWide)
open Cosca.Ports.WindowsPath
open Cosca.Verified.Utf16

/-! ## The check -/

/-- `Path::display`. -/
def display (text : Wide) : String :=
  String.ofList (lossy text)

/-- The extension is `bat` or `cmd`, its lossy text compared in lower case. -/
def isBatchExtension (ext : Wide) : Bool :=
  let ext := (lossy ext).map lowerChar
  ext == ['b', 'a', 't'] || ext == ['c', 'm', 'd']

/-- `reject_batch_path`. -/
def rejectBatchPath (prog : Wide) : Except Error Unit :=
  match (Path.parse prog).extension with
  | none => .ok ()
  | some ext =>
      if isBatchExtension ext then
        .error (.unsupported ("running " ++ display prog) "windows"
          "cmd.exe batch escaping is not implemented (CVE-2024-24576); use .commandline() to pass an explicit, pre-escaped command line")
      else .ok ()

/-- `program_token`: `argv[0]`, or the first token of the command line. -/
def programToken (cmd : Command Wide) : Option Wide :=
  match cmd.input with
  | .empty => none
  | .argv argv => argv.head?
  | .commandLine line => firstTokenWide line

/-- `reject_batch_program`. -/
def rejectBatchProgram (cmd : Command Wide) : Except Error Unit :=
  match cmd.executable.or (programToken cmd) with
  | some prog => rejectBatchPath prog
  | none => .ok ()

/-! ## Names -/

/-- The name ends in `.bat` or `.cmd`, in any letter case. -/
def isBatchName (name : Wide) : Bool :=
  [46, 98, 97, 116].isSuffixOf (name.map lowerUnit) ||
    [46, 99, 109, 100].isSuffixOf (name.map lowerUnit)

theorem lowerUnit_eq_self {u v : UInt16} (h : lowerUnit u = v)
    (hv : v.toNat < 65) : u = v := by
  unfold lowerUnit at h
  split at h
  · next hup =>
      have h1 : (65 : UInt16).toNat = 65 := rfl
      have h2 : (90 : UInt16).toNat = 90 := rfl
      have h3 : (32 : UInt16).toNat = 32 := rfl
      simp only [Bool.and_eq_true, decide_eq_true_eq, UInt16.le_iff_toNat_le,
        h1, h2] at hup
      have hnat := congrArg UInt16.toNat h
      rw [UInt16.toNat_add, h3] at hnat
      omega
  · exact h

/-- The two extensions the check knows, as units. -/
theorem isBatchExtension_iff (ext : Wide) :
    isBatchExtension ext = true ↔ ext.map lowerUnit = [98, 97, 116] ∨
      ext.map lowerUnit = [99, 109, 100] := by
  have hbat := lossy_map_eq_iff [98, 97, 116] (by
    intro u hu
    simp only [List.mem_cons, List.not_mem_nil, or_false] at hu
    rcases hu with rfl | rfl | rfl <;> decide) ext
  have hcmd := lossy_map_eq_iff [99, 109, 100] (by
    intro u hu
    simp only [List.mem_cons, List.not_mem_nil, or_false] at hu
    rcases hu with rfl | rfl | rfl <;> decide) ext
  rw [← hbat, ← hcmd]
  simp only [isBatchExtension, Bool.or_eq_true, beq_iff_eq]
  rfl

/-- The split at the last dot. -/
theorem splitAtLastDot_append (before after : Wide) (h : dot ∉ after) :
    splitAtLastDot (before ++ dot :: after) = some (before, after) := by
  have hall : ∀ c ∈ after.reverse, (c != dot) = true := by
    intro c hc
    simp only [bne_iff_ne]
    rintro rfl
    exact h (List.mem_reverse.mp hc)
  have htake : ((before ++ dot :: after).reverse.takeWhile (· != dot)) =
      after.reverse := by
    rw [List.reverse_append, List.reverse_cons, List.append_assoc,
      List.takeWhile_append_of_pos hall]
    simp
  have hmem : (before ++ dot :: after).contains dot = true := by
    simp
  simp only [splitAtLastDot, hmem, if_true, htake, List.reverse_reverse,
    List.length_append, List.length_cons]
  rw [show before.length + (after.length + 1) - after.length - 1 =
    before.length by omega, List.take_left]

/-- A name with a dot is cut at its last one. -/
theorem exists_last_dot {file : Wide} (h : dot ∈ file) :
    ∃ before after, file = before ++ dot :: after ∧ dot ∉ after := by
  obtain ⟨after, before, hrev, hnot⟩ :=
    List.eq_append_cons_of_mem (List.mem_reverse.mpr h)
  refine ⟨before.reverse, after.reverse, ?_, fun hc =>
    hnot (List.mem_reverse.mp hc)⟩
  have hfile := congrArg List.reverse hrev
  simpa using hfile

/-- The extension of a name with something in front of its last dot. -/
theorem rsplit_of_append (before after : Wide) (hne : before ≠ [])
    (h : dot ∉ after) :
    rsplitFileAtDot (before ++ dot :: after) =
      if before ++ dot :: after = [dot, dot] then (some [dot, dot], none)
      else (some before, some after) := by
  have hempty : before.isEmpty = false := by
    simpa using hne
  by_cases hdots : before ++ dot :: after = [dot, dot]
  · simp only [hdots, if_true]
    rfl
  · simp only [rsplitFileAtDot, beq_iff_eq, hdots, if_false,
      splitAtLastDot_append before after h, hempty, Bool.false_eq_true]

/-- A name that begins with its only dot has no extension. -/
theorem rsplit_of_leading (after : Wide) (h : dot ∉ after) :
    rsplitFileAtDot (dot :: after) = (some (dot :: after), none) := by
  have hdots : dot :: after ≠ [dot, dot] := by
    intro heq
    obtain rfl := (List.cons.inj heq).2
    exact h (by simp)
  have hcut := splitAtLastDot_append [] after h
  rw [List.nil_append] at hcut
  simp only [rsplitFileAtDot, beq_iff_eq, hdots, if_false, hcut,
    List.isEmpty_nil, if_true]

/-- The check refuses a path whose final component is `name`. -/
def rejected (name : Wide) : Bool :=
  match rsplitFileAtDot name with
  | (some _, some ext) => isBatchExtension ext
  | _ => false

/-- A lower-case image that is free of dots has a dot-free original. -/
theorem dot_not_mem_of_lower {ext low : Wide} (h : ext.map lowerUnit = low)
    (hlow : dot ∉ low) : dot ∉ ext := by
  intro hmem
  apply hlow
  rw [← h]
  exact List.mem_map.mpr ⟨dot, hmem, by decide⟩

/-- A batch name is cut into what is in front of its last dot and the
extension. -/
theorem isBatchName_iff (name : Wide) : isBatchName name = true ↔
    ∃ before ext, name = before ++ dot :: ext ∧ dot ∉ ext ∧
      ext.length = 3 ∧ isBatchExtension ext = true := by
  have hcut : ∀ low : Wide, dot ∉ low →
      ((dot :: low).isSuffixOf (name.map lowerUnit) = true ↔
        ∃ before ext, name = before ++ dot :: ext ∧
          ext.map lowerUnit = low) := by
    intro low hlow
    rw [List.isSuffixOf_iff_suffix]
    constructor
    · rintro ⟨t, ht⟩
      obtain ⟨before, rest, hname, hbefore, hrest⟩ :=
        List.map_eq_append_iff.mp ht.symm
      obtain ⟨c, ext, hrest', hc, hext⟩ := List.map_eq_cons_iff.mp hrest
      obtain rfl := lowerUnit_eq_self hc (by decide)
      exact ⟨before, ext, by rw [hname, hrest'], hext⟩
    · rintro ⟨before, ext, rfl, hext⟩
      refine ⟨before.map lowerUnit, ?_⟩
      rw [List.map_append, List.map_cons, hext]
      rfl
  have hbat := hcut [98, 97, 116] (by decide)
  have hcmd := hcut [99, 109, 100] (by decide)
  simp only [isBatchName, Bool.or_eq_true, isBatchExtension_iff]
  rw [hbat, hcmd]
  constructor
  · rintro (⟨before, ext, hname, hext⟩ | ⟨before, ext, hname, hext⟩)
    · have hlen := congrArg List.length hext
      rw [List.length_map] at hlen
      exact ⟨before, ext, hname, dot_not_mem_of_lower hext (by decide), hlen,
        .inl hext⟩
    · have hlen := congrArg List.length hext
      rw [List.length_map] at hlen
      exact ⟨before, ext, hname, dot_not_mem_of_lower hext (by decide), hlen,
        .inr hext⟩
  · rintro ⟨before, ext, hname, _, _, hext | hext⟩
    · exact .inl ⟨before, ext, hname, hext⟩
    · exact .inr ⟨before, ext, hname, hext⟩

theorem isBatchExtension_length {ext : Wide}
    (h : isBatchExtension ext = true) : ext.length = 3 := by
  rcases (isBatchExtension_iff ext).mp h with h | h
  · have hlen := congrArg List.length h
    rwa [List.length_map] at hlen
  · have hlen := congrArg List.length h
    rwa [List.length_map] at hlen

/-- The check catches exactly the batch names with something in front of the
extension. -/
theorem rejected_iff (name : Wide) :
    rejected name = true ↔ isBatchName name = true ∧ 4 < name.length := by
  constructor
  · intro h
    by_cases hdot : dot ∈ name
    · obtain ⟨before, after, rfl, hafter⟩ := exists_last_dot hdot
      by_cases hne : before = []
      · subst hne
        rw [List.nil_append] at h
        unfold rejected at h
        rw [rsplit_of_leading after hafter] at h
        exact absurd h Bool.false_ne_true
      · unfold rejected at h
        rw [rsplit_of_append before after hne hafter] at h
        split at h
        · next heq =>
            split at heq
            · exact absurd (congrArg Prod.snd heq) (by simp)
            · obtain rfl := Option.some.inj (congrArg Prod.snd heq)
              have hlen := isBatchExtension_length h
              refine ⟨(isBatchName_iff _).mpr
                ⟨before, after, rfl, hafter, hlen, h⟩, ?_⟩
              have hpos := List.length_pos_iff.mpr hne
              rw [List.length_append, List.length_cons]
              omega
        · exact absurd h Bool.false_ne_true
    · have hdots : name ≠ [dot, dot] := by
        rintro rfl
        exact hdot (by simp)
      unfold rejected rsplitFileAtDot splitAtLastDot at h
      simp [hdot, hdots] at h
  · rintro ⟨hbatch, hlen⟩
    obtain ⟨before, ext, rfl, hext, hthree, hisbatch⟩ :=
      (isBatchName_iff name).mp hbatch
    rw [List.length_append, List.length_cons] at hlen
    have hne : before ≠ [] := by
      rintro rfl
      simp only [List.length_nil] at hlen
      omega
    have hdots : before ++ dot :: ext ≠ [dot, dot] := by
      intro h
      have hcount := congrArg List.length h
      rw [List.length_append, List.length_cons] at hcount
      simp only [List.length_cons, List.length_nil] at hcount
      omega
    unfold rejected
    rw [rsplit_of_append before ext hne hext, if_neg hdots]
    exact hisbatch

/-! ## Programs -/

/-- The check on a whole path. -/
theorem rejectBatchPath_eq (prog : Wide) :
    rejectBatchPath prog = .ok () ↔
      ∀ name, (Path.parse prog).fileName = some name →
        rejected name = false := by
  unfold rejectBatchPath Path.extension
  cases hname : (Path.parse prog).fileName with
  | none =>
      constructor
      · intro _ name h
        exact absurd h (by simp)
      · intro _
        rfl
  | some name =>
      have hall : (∀ n, some name = some n → rejected n = false) ↔
          rejected name = false :=
        ⟨fun h => h name rfl, fun h n hn => Option.some.inj hn ▸ h⟩
      rw [hall]
      unfold rejected
      rw [Option.bind_some]
      rcases rsplitFileAtDot name with ⟨before | before, after | after⟩
      · exact ⟨fun _ => rfl, fun _ => rfl⟩
      · exact ⟨fun _ => rfl, fun _ => rfl⟩
      · exact ⟨fun _ => rfl, fun _ => rfl⟩
      · cases hext : isBatchExtension after <;> simp [hext]

/-- The path ends in a batch name with something in front of its
extension. -/
def PlainBatch (p : Path) : Prop :=
  ∃ name, p.fileName = some name ∧ isBatchName name = true ∧ 4 < name.length

/-- The check refuses exactly the programs that end in such a name. -/
theorem rejectBatchPath_error_iff (prog : Wide) :
    (∃ e, rejectBatchPath prog = .error e) ↔ PlainBatch (Path.parse prog) := by
  constructor
  · rintro ⟨e, he⟩
    have hpass : rejectBatchPath prog ≠ .ok () := by
      rw [he]
      simp
    rw [Ne, rejectBatchPath_eq] at hpass
    cases hname : (Path.parse prog).fileName with
    | none =>
        exact absurd (fun n hn => absurd (hname.symm.trans hn) (by simp)) hpass
    | some name =>
        cases hrej : rejected name with
        | true => exact ⟨name, hname, (rejected_iff name).mp hrej⟩
        | false =>
            refine absurd (fun n hn => ?_) hpass
            obtain rfl := Option.some.inj (hname.symm.trans hn)
            exact hrej
  · rintro ⟨name, hname, hbatch⟩
    cases hr : rejectBatchPath prog with
    | error e => exact ⟨e, rfl⟩
    | ok u =>
        have hpass := (rejectBatchPath_eq prog).mp hr name hname
        rw [(rejected_iff name).mpr hbatch] at hpass
        exact absurd hpass (by simp)

end Cosca.Ports.BatchRejection
