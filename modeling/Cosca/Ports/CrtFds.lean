import Cosca.Ports.CommandRecord
import Cosca.Verified.Table

/-!
# The descriptor table of a Windows child

`crt_fds.rs`, with `ensure_fd_table_fits` and `build_fd_table` of the raw
backend: the table that a child's CRT reads from `lpReserved2`.  A handle is
known by its value, and `GetFileType` answers from outside.

The debug assertion of `encode` is left out.

## Main results

* `encode_exact`: a table that fits is read back as the map it was made of,
  and exactly the tables of at most `0xFFFF` bytes fit.
* `buildFdTable_fits`: what `ensure_fd_table_fits` accepts is a table that
  fits.
-/

namespace Cosca.Ports.CrtFds

open Cosca.Ports.CommandRecord (Fd ResolvedStdio)
open Cosca.Ports.Errors
open Cosca.Verified.Table

/-! ## Machine words -/

/-- A target of the Windows backend. -/
structure Target where
  /-- `HANDLE_SIZE`, which is the width of a `usize` too. -/
  handleSize : Nat
  littleEndian : Bool
  /-- A `usize` is wider than a `u16`. -/
  wide : 2 < handleSize

variable (t : Target)

/-- `usize::MAX`. -/
def Target.usizeMax : Nat := 256 ^ t.handleSize - 1

/-- `usize::try_from` of an `i32`. -/
def Target.tryFrom (n : Int32) : Option Nat :=
  if 0 ≤ n.toInt ∧ n.toInt.toNat ≤ t.usizeMax then some n.toInt.toNat else none

/-- `usize::checked_add`. -/
def Target.checkedAdd (a b : Nat) : Option Nat :=
  if a + b ≤ t.usizeMax then some (a + b) else none

/-- `usize::checked_mul`. -/
def Target.checkedMul (a b : Nat) : Option Nat :=
  if a * b ≤ t.usizeMax then some (a * b) else none

/-- `HANDLE`, by its value. -/
abbrev Handle := BitVec (8 * t.handleSize)

/-- `INVALID_HANDLE_VALUE`. -/
def invalidHandleValue : Handle t := BitVec.allOnes _

/-- `usize::to_ne_bytes` of a handle. -/
def handleBytes (h : Handle t) : List UInt8 :=
  toBytes t.littleEndian t.handleSize h.toNat

/-! ## The table -/

/-- `FdKind`. -/
inductive FdKind where
  | pipe
  | file
  | charDev
  deriving DecidableEq, Repr

/-- `FOPEN`, `FPIPE` and `FDEV`. -/
def fopen : UInt8 := 0x01

def fpipe : UInt8 := 0x08

def fdev : UInt8 := 0x40

/-- `FdTable`. -/
structure FdTable where
  bytes : List UInt8
  handles : List (Handle t)
  deriving DecidableEq

/-- `present_flag`. -/
def presentFlag (kind : FdKind) : UInt8 :=
  fopen ||| match kind with
    | .pipe => fpipe
    | .charDev => fdev
    | .file => 0

/-- `table_fits`. -/
def tableFits (byteLen : Nat) : Bool := byteLen ≤ 0xFFFF

/-- `encoded_len`. -/
def encodedLen (maxfd : Int32) : Nat :=
  match ((((t.tryFrom maxfd).bind fun m => t.checkedAdd m 1).bind
    fun n => t.checkedMul n (1 + t.handleSize)).bind
      fun x => t.checkedAdd x 4) with
  | some len => if tableFits len then len else t.usizeMax
  | none => t.usizeMax

/-- The map that `encode` takes, by ascending descriptor. -/
abbrev Entries := List (Fd × (Handle t × FdKind))

variable {t}

/-- `BTreeMap::get`. -/
def Entries.get? (entries : Entries t) (slot : Fd) :
    Option (Handle t × FdKind) :=
  (entries.find? fun (fd, _) => fd == slot).map fun (_, entry) => entry

/-- The largest key of a map, `-1` if it has none. -/
def Entries.maxfd (entries : Entries t) : Int32 :=
  match entries.getLast? with
  | some (fd, _) => fd.raw
  | none => -1

/-- `Fd::from_raw(i as i32)`. -/
def fdAt (i : Nat) : Fd := ⟨Int32.ofNat i⟩

/-- The flag byte of a slot. -/
def slotFlag : Option (Handle t × FdKind) → UInt8
  | some (_, kind) => presentFlag kind
  | none => 0

/-- The handle of a slot. -/
def slotHandle : Option (Handle t × FdKind) → Handle t
  | some (h, _) => h
  | none => invalidHandleValue t

/-- The slot count of a table. -/
def slotCount (entries : Entries t) : Nat :=
  match t.tryFrom entries.maxfd with
  | some m => (m + 1) % 256 ^ t.handleSize
  | none => 0

/-- `encode`. -/
def encode (entries : Entries t) : FdTable t where
  bytes :=
    toLe 4 (Int32.ofNat (slotCount entries)).toUInt32.toNat ++
      (List.range (slotCount entries)).map
        (fun i => slotFlag (entries.get? (fdAt i))) ++
      (List.range (slotCount entries)).flatMap
        (fun i => handleBytes t (slotHandle (entries.get? (fdAt i))))
  handles := (List.range (slotCount entries)).filterMap fun i =>
    (entries.get? (fdAt i)).map fun (h, _) => h

/-- `cbReserved2` of a table. -/
def FdTable.cbReserved2 (table : FdTable t) : UInt16 :=
  table.bytes.length.toUInt16

/-! ## The raw backend -/

/-- The largest configured descriptor, with the floor of
`ensure_fd_table_fits`. -/
def maxConfigured (fds : CommandRecord.FdTable) : Int32 :=
  match fds.getLast? with
  | some (fd, _) => fd.raw
  | none => 2

/-- `ensure_fd_table_fits`. -/
def ensureFdTableFits (t : Target) (fds : CommandRecord.FdTable) :
    Except Error Unit :=
  if !tableFits (encodedLen t (maxConfigured fds)) then
    .error (.unsupported s!"fd {(maxConfigured fds).toInt}" "windows"
      "descriptor table exceeds the 64KiB cbReserved2 limit")
  else .ok ()

/-- The entries of `build_fd_table`; `classify` is answered by the system. -/
def classifyEnds (classify : Handle t → Except Error FdKind) :
    List (Fd × Handle t) → Except Error (Entries t)
  | [] => .ok []
  | (slot, h) :: ends => do
      let kind ← classify h
      let entries ← classifyEnds classify ends
      return (slot, (h, kind)) :: entries

/-- `build_fd_table`, over the child ends by ascending descriptor. -/
def buildFdTable (classify : Handle t → Except Error FdKind)
    (childEnds : List (Fd × Handle t)) : Except Error (FdTable t) := do
  let entries ← classifyEnds classify childEnds
  return encode entries

/-! ## Sizes -/

theorem Target.lt_usizeMax (t : Target) : 0xFFFF < t.usizeMax := by
  have hpow : (256 : Nat) ^ 3 ≤ 256 ^ t.handleSize :=
    Nat.pow_le_pow_right (by omega) t.wide
  rw [Target.usizeMax]
  omega

theorem tableFits_iff {byteLen : Nat} :
    tableFits byteLen = true ↔ byteLen ≤ 0xFFFF := by
  simp [tableFits]

/-- The exact length, where it fits. -/
theorem encodedLen_eq {m : Int32} (hm : 0 ≤ m.toInt)
    (hfits : 4 + (m.toInt.toNat + 1) * (1 + t.handleSize) ≤ 0xFFFF) :
    encodedLen t m = 4 + (m.toInt.toNat + 1) * (1 + t.handleSize) := by
  have hmax := t.lt_usizeMax
  have hcount : m.toInt.toNat + 1 ≤
      (m.toInt.toNat + 1) * (1 + t.handleSize) :=
    Nat.le_mul_of_pos_right _ (by omega)
  have hfrom : t.tryFrom m = some m.toInt.toNat := if_pos ⟨hm, by omega⟩
  have hadd : t.checkedAdd m.toInt.toNat 1 = some (m.toInt.toNat + 1) :=
    if_pos (by omega)
  have hmul : t.checkedMul (m.toInt.toNat + 1) (1 + t.handleSize) =
      some ((m.toInt.toNat + 1) * (1 + t.handleSize)) := if_pos (by omega)
  have hlen : t.checkedAdd ((m.toInt.toNat + 1) * (1 + t.handleSize)) 4 =
      some ((m.toInt.toNat + 1) * (1 + t.handleSize) + 4) :=
    if_pos (by omega)
  have hin : tableFits ((m.toInt.toNat + 1) * (1 + t.handleSize) + 4) =
      true := tableFits_iff.mpr (by omega)
  rw [encodedLen, hfrom, Option.bind_some, hadd, Option.bind_some, hmul,
    Option.bind_some, hlen]
  dsimp only
  rw [if_pos hin]
  omega

/-- Nothing but the exact length fits: what overflows is `usize::MAX`. -/
theorem of_tableFits_encodedLen {m : Int32}
    (h : tableFits (encodedLen t m) = true) :
    0 ≤ m.toInt ∧
      4 + (m.toInt.toNat + 1) * (1 + t.handleSize) ≤ 0xFFFF := by
  have hmax := t.lt_usizeMax
  have hover : tableFits t.usizeMax ≠ true := by
    rw [Ne, tableFits_iff]
    omega
  rw [encodedLen] at h
  by_cases hfrom : 0 ≤ m.toInt ∧ m.toInt.toNat ≤ t.usizeMax
  · rw [Target.tryFrom, if_pos hfrom, Option.bind_some] at h
    by_cases hadd : m.toInt.toNat + 1 ≤ t.usizeMax
    · rw [Target.checkedAdd, if_pos hadd, Option.bind_some] at h
      by_cases hmul : (m.toInt.toNat + 1) * (1 + t.handleSize) ≤ t.usizeMax
      · rw [Target.checkedMul, if_pos hmul, Option.bind_some] at h
        by_cases hlen : (m.toInt.toNat + 1) * (1 + t.handleSize) + 4 ≤
            t.usizeMax
        · rw [Target.checkedAdd, if_pos hlen] at h
          dsimp only at h
          by_cases hin : tableFits
              ((m.toInt.toNat + 1) * (1 + t.handleSize) + 4) = true
          · have hle := tableFits_iff.mp hin
            exact ⟨hfrom.1, by omega⟩
          · rw [if_neg hin] at h
            exact absurd h hover
        · rw [Target.checkedAdd, if_neg hlen] at h
          exact absurd h hover
      · rw [Target.checkedMul, if_neg hmul] at h
        exact absurd h hover
    · rw [Target.checkedAdd, if_neg hadd] at h
      exact absurd h hover
  · rw [Target.tryFrom, if_neg hfrom] at h
    exact absurd h hover

/-! ## Maps of descriptors -/

/-- A descriptor as an index. -/
def fdIndex {V : Type} (e : Fd × V) : Nat := e.1.raw.toInt.toNat

/-- A map over non-negative descriptors. -/
structure FdMap (t : Target) where
  entries : Entries t
  sorted : entries.Pairwise fun a b => a.1.raw.toInt < b.1.raw.toInt
  nonneg : ∀ e ∈ entries, 0 ≤ e.1.raw.toInt

theorem toInt_fdAt {i : Nat} (hi : i < 2 ^ 31) :
    (fdAt i).raw.toInt = i :=
  Int32.toInt_ofNat_of_lt hi

/-- A non-negative descriptor is the one at its index. -/
theorem fdAt_eq_iff {fd : Fd} (hfd : 0 ≤ fd.raw.toInt) {i : Nat}
    (hi : i < 2 ^ 31) : fd = fdAt i ↔ fd.raw.toInt.toNat = i := by
  have hat := toInt_fdAt hi
  constructor
  · intro h
    rw [h, hat]
    exact Int.toNat_natCast i
  · intro h
    have hraw : fd.raw.toInt = (fdAt i).raw.toInt := by
      rw [hat]
      omega
    obtain ⟨raw⟩ := fd
    exact congrArg Fd.mk (Int32.toInt_inj.mp hraw)

theorem get?_fdAt {entries : Entries t}
    (hnonneg : ∀ e ∈ entries, 0 ≤ e.1.raw.toInt) {i : Nat}
    (hi : i < 2 ^ 31) : entries.get? (fdAt i) =
      (entryAt fdIndex entries i).map fun e => e.2 := by
  induction entries with
  | nil => rfl
  | cons e entries ih =>
      obtain ⟨fd, entry⟩ := e
      have hfd : 0 ≤ fd.raw.toInt := hnonneg _ List.mem_cons_self
      have hrest := ih fun e he => hnonneg e (List.mem_cons_of_mem _ he)
      by_cases hindex : fd.raw.toInt.toNat = i
      · have hat := (fdAt_eq_iff hfd hi).mpr hindex
        have hself : entryAt fdIndex ((fd, entry) :: entries) i =
            some (fd, entry) := hindex ▸ entryAt_cons_self (fd, entry) entries
        rw [hself, Entries.get?, List.find?_cons_of_pos (by simpa using hat)]
      · have hat : fd ≠ fdAt i := fun h => hindex ((fdAt_eq_iff hfd hi).mp h)
        have hne : fdIndex (fd, entry) ≠ i := hindex
        rw [entryAt_cons_of_ne hne, ← hrest, Entries.get?,
          List.find?_cons_of_neg (by simpa using hat)]
        rfl

/-- A map is listed slot by slot. -/
theorem FdMap.filterMap_get? (map : FdMap t) {count : Nat}
    (hcount : count ≤ 2 ^ 31)
    (hall : ∀ e ∈ map.entries, fdIndex e < count) :
    (List.range count).filterMap (fun i =>
      (map.entries.get? (fdAt i)).map fun entry => (fdAt i, entry)) =
        map.entries := by
  have hsorted : map.entries.Pairwise fun a b => fdIndex a < fdIndex b := by
    refine map.sorted.imp_of_mem fun {a b} ha hb hlt => ?_
    have hnonneg := map.nonneg a ha
    rw [fdIndex, fdIndex]
    omega
  have hlist := filterMap_entryAt count 0 map.entries hsorted fun e he => by
    have hlt := hall e he
    omega
  rw [← List.range_eq_range'] at hlist
  refine Eq.trans (List.filterMap_congr fun i hi => ?_) hlist
  have hlt := List.mem_range.mp hi
  have hi31 : i < 2 ^ 31 := by omega
  rw [get?_fdAt map.nonneg hi31]
  cases hentry : entryAt fdIndex map.entries i with
  | none => rfl
  | some e =>
      have hmem : e ∈ map.entries := List.mem_of_find?_eq_some hentry
      have hindex : e.1.raw.toInt.toNat = i := by
        simpa [fdIndex] using List.find?_some hentry
      have hfd := (fdAt_eq_iff (map.nonneg e hmem) hi31).mpr hindex
      show some (fdAt i, e.2) = some e
      rw [← hfd]

/-- The largest key is the last one. -/
theorem FdMap.fdIndex_le (map : FdMap t) {e : Fd × (Handle t × FdKind)}
    (he : e ∈ map.entries) : fdIndex e ≤ map.entries.maxfd.toInt.toNat := by
  rw [Entries.maxfd]
  cases hlast : map.entries.getLast? with
  | none =>
      rw [List.getLast?_eq_none_iff.mp hlast] at he
      cases he
  | some last =>
      obtain ⟨before, hbefore⟩ := List.getLast?_eq_some_iff.mp hlast
      have hsorted := map.sorted
      rw [hbefore] at he hsorted
      rcases List.mem_append.mp he with he | he
      · have hlt := (List.pairwise_append.mp hsorted).2.2 e he last
          (List.mem_singleton.mpr rfl)
        show e.1.raw.toInt.toNat ≤ last.1.raw.toInt.toNat
        omega
      · rw [List.mem_singleton.mp he]
        exact Nat.le_refl _

/-! ## Reading the table -/

/-- A slot of a table. -/
structure Slot (t : Target) where
  flag : UInt8
  handle : Handle t

/-- What a child's CRT reads: the count, the flag bytes and the handles. -/
def readTable (t : Target) (bytes : List UInt8) : Option (List (Slot t)) :=
  let count := ofLe (bytes.take 4)
  if bytes.length = 4 + count * (1 + t.handleSize) then
    let flags := (bytes.drop 4).take count
    let handles := (chunks t.handleSize count (bytes.drop (4 + count))).map
      fun cell => BitVec.ofNat _ (ofBytes t.littleEndian cell)
    some ((flags.zip handles).map fun (flag, handle) => { flag, handle })
  else none

/-- The device kind of a flag byte; `none` for a gap. -/
def readKind (flag : UInt8) : Option FdKind :=
  if flag &&& fopen = 0 then none
  else if flag &&& fpipe ≠ 0 then some .pipe
  else if flag &&& fdev ≠ 0 then some .charDev
  else some .file

/-- The map of a table's slots. -/
def readEntries (slots : List (Slot t)) : Entries t :=
  ((List.range slots.length).zip slots).filterMap fun (i, slot) =>
    (readKind slot.flag).map fun kind => (fdAt i, (slot.handle, kind))

theorem readKind_presentFlag (kind : FdKind) :
    readKind (presentFlag kind) = some kind := by
  cases kind <;> decide

theorem ofBytes_handleBytes (h : Handle t) :
    BitVec.ofNat (8 * t.handleSize)
      (ofBytes t.littleEndian (handleBytes t h)) = h := by
  have hpow : (2 : Nat) ^ (8 * t.handleSize) = 256 ^ t.handleSize :=
    Nat.pow_mul 2 8 t.handleSize
  have hlt : h.toNat < 256 ^ t.handleSize := by
    rw [← hpow]
    exact h.isLt
  rw [handleBytes, ofBytes_toBytes t.littleEndian hlt]
  rw [BitVec.ofNat_toNat, BitVec.setWidth_eq]

/-- Slots that are written by their index are read back as a map. -/
theorem readEntries_map (count : Nat)
    (entry : Nat → Option (Handle t × FdKind)) :
    readEntries ((List.range count).map fun i =>
        (⟨slotFlag (entry i), slotHandle (entry i)⟩ : Slot t)) =
      (List.range count).filterMap fun i =>
        (entry i).map fun e => (fdAt i, e) := by
  have hzip := List.zip_map' (f := id) (l := List.range count) (g := fun i =>
    (⟨slotFlag (entry i), slotHandle (entry i)⟩ : Slot t))
  rw [List.map_id] at hzip
  rw [readEntries, List.length_map, List.length_range, hzip,
    List.filterMap_map]
  refine List.filterMap_congr fun i _ => ?_
  cases hentry : entry i with
  | none => simp [hentry, slotFlag, readKind]
  | some e =>
      obtain ⟨h, kind⟩ := e
      simp [hentry, slotFlag, slotHandle, readKind_presentFlag]

/-- The table of a slot for every index up to `count` is read back. -/
theorem readTable_sections {count : Nat} (hcount : count < 2 ^ 31)
    (entry : Nat → Option (Handle t × FdKind)) :
    readTable t (toLe 4 (Int32.ofNat count).toUInt32.toNat ++
        (List.range count).map (fun i => slotFlag (entry i)) ++
        (List.range count).flatMap
          (fun i => handleBytes t (slotHandle (entry i)))) =
      some ((List.range count).map fun i =>
        ⟨slotFlag (entry i), slotHandle (entry i)⟩) := by
  have hword : (Int32.ofNat count).toUInt32.toNat = count := by
    have hsize : UInt32.size = 2 ^ 32 := rfl
    rw [Int32.toUInt32_ofNat']
    exact UInt32.toNat_ofNat_of_lt' (by omega)
  have hcell (i : Nat) : (handleBytes t (slotHandle (entry i))).length =
      t.handleSize := length_toBytes _ _ _
  generalize hflags : (List.range count).map (fun i => slotFlag (entry i)) =
    flags
  generalize hcells : (List.range count).flatMap
    (fun i => handleBytes t (slotHandle (entry i))) = cells
  have hflagsLen : flags.length = count := by
    rw [← hflags, List.length_map, List.length_range]
  have hcellsLen : cells.length = count * t.handleSize := by
    rw [← hcells, length_flatMap_cells _ hcell, List.length_range]
  have hhead : (toLe 4 (Int32.ofNat count).toUInt32.toNat).length = 4 :=
    length_toLe 4 _
  have hcountRead : ofLe ((toLe 4 (Int32.ofNat count).toUInt32.toNat ++
      flags ++ cells).take 4) = count := by
    rw [List.append_assoc, List.take_left' hhead, hword,
      ofLe_toLe 4 count (by omega)]
  have hafterHead : (toLe 4 (Int32.ofNat count).toUInt32.toNat ++ flags ++
      cells).drop 4 = flags ++ cells := by
    rw [List.append_assoc, List.drop_left' hhead]
  have hafterFlags : (toLe 4 (Int32.ofNat count).toUInt32.toNat ++ flags ++
      cells).drop (4 + count) = cells :=
    List.drop_left' (by rw [List.length_append, hhead, hflagsLen])
  have hlength : (toLe 4 (Int32.ofNat count).toUInt32.toNat ++ flags ++
      cells).length = 4 + count * (1 + t.handleSize) := by
    rw [List.length_append, List.length_append, hhead, hflagsLen, hcellsLen,
      Nat.mul_add]
    omega
  have hchunks := chunks_flatMap
    (fun i => handleBytes t (slotHandle (entry i))) hcell (List.range count)
  rw [List.length_range, hcells] at hchunks
  rw [readTable, hcountRead]
  dsimp only
  rw [if_pos hlength, hafterHead, hafterFlags, List.take_left' hflagsLen,
    hchunks, ← hflags, List.map_map, List.zip_map', List.map_map]
  refine congrArg some (List.map_congr_left fun i _ => ?_)
  show (⟨slotFlag (entry i), BitVec.ofNat _ (ofBytes t.littleEndian
    (handleBytes t (slotHandle (entry i))))⟩ : Slot t) = _
  rw [ofBytes_handleBytes]

/-! ## The table of a map -/

/-- The table of a map: it fits, and it is read back as the map. -/
structure Exact (map : FdMap t) (table : FdTable t) : Prop where
  length_eq : table.bytes.length = encodedLen t map.entries.maxfd
  length_le : table.bytes.length ≤ 0xFFFF
  /-- The cast to `cbReserved2` loses nothing. -/
  lossless : table.cbReserved2.toNat = table.bytes.length
  /-- There is a slot for every index up to the largest key; a gap has a zero
  flag and `INVALID_HANDLE_VALUE`. -/
  slots : readTable t table.bytes =
    some ((List.range (map.entries.maxfd.toInt.toNat + 1)).map fun i =>
      ⟨slotFlag (map.entries.get? (fdAt i)),
        slotHandle (map.entries.get? (fdAt i))⟩)
  entries : (readTable t table.bytes).map readEntries = some map.entries
  handles : table.handles = map.entries.map fun (_, h, _) => h

theorem slotCount_eq {entries : Entries t} (hmax : 0 ≤ entries.maxfd.toInt)
    (hfits : 4 + (entries.maxfd.toInt.toNat + 1) * (1 + t.handleSize) ≤
      0xFFFF) : slotCount entries = entries.maxfd.toInt.toNat + 1 := by
  have husize := t.lt_usizeMax
  have hcount : entries.maxfd.toInt.toNat + 1 ≤
      (entries.maxfd.toInt.toNat + 1) * (1 + t.handleSize) :=
    Nat.le_mul_of_pos_right _ (by omega)
  have hfrom : t.tryFrom entries.maxfd = some entries.maxfd.toInt.toNat :=
    if_pos ⟨hmax, by omega⟩
  rw [slotCount, hfrom]
  rw [Target.usizeMax] at husize
  exact Nat.mod_eq_of_lt (by omega)

theorem length_encode (entries : Entries t) :
    (encode entries).bytes.length =
      4 + slotCount entries * (1 + t.handleSize) := by
  have hcell (i : Nat) : (handleBytes t
      (slotHandle (entries.get? (fdAt i)))).length = t.handleSize :=
    length_toBytes _ _ _
  show (toLe 4 _ ++ (List.range _).map _ ++ (List.range _).flatMap _).length =
    _
  rw [List.length_append, List.length_append, length_toLe, List.length_map,
    List.length_range, length_flatMap_cells _ hcell, List.length_range,
    Nat.mul_add]
  omega

/-- A table that fits is exact. -/
theorem FdMap.exact_encode (map : FdMap t)
    (h : tableFits (encodedLen t map.entries.maxfd) = true) :
    Exact map (encode map.entries) := by
  obtain ⟨hmax, hfits⟩ := of_tableFits_encodedLen h
  have hslots := slotCount_eq hmax hfits
  have hlen := encodedLen_eq hmax hfits
  rw [← hslots] at hfits hlen
  have hcount : slotCount map.entries ≤
      slotCount map.entries * (1 + t.handleSize) :=
    Nat.le_mul_of_pos_right _ (by omega)
  have hread : readTable t (encode map.entries).bytes = _ :=
    readTable_sections (by omega) fun i => map.entries.get? (fdAt i)
  have hdense := map.filterMap_get? (by omega : slotCount map.entries ≤ 2 ^ 31)
    fun e he => by
      have hle := map.fdIndex_le he
      omega
  have hlength := length_encode map.entries
  constructor
  case length_eq => rw [hlength, hlen]
  case length_le => omega
  case lossless =>
    show (encode map.entries).bytes.length % 65536 = _
    omega
  case slots => rw [← hslots, hread]
  case entries =>
    rw [hread, Option.map_some, readEntries_map, hdense]
  case handles =>
    show (List.range (slotCount map.entries)).filterMap _ = _
    conv => rhs; rw [← hdense]
    rw [List.map_filterMap]
    refine List.filterMap_congr fun i _ => ?_
    cases map.entries.get? (fdAt i) <;> rfl

/-- A table that fits is read back as the map it was made of, and exactly the
tables of at most `0xFFFF` bytes fit.  `Target.wide` holds on every Windows
target, whose `usize` has four or eight bytes; with two the length of a table
that is too large would come to `0xFFFF` and fit. -/
theorem encode_exact (t : Target) :
    (∀ m : Int32, tableFits (encodedLen t m) = true ↔
      0 ≤ m.toInt ∧ 4 + (m.toInt + 1) * (1 + t.handleSize) ≤ 65535) ∧
    ∀ map : FdMap t, tableFits (encodedLen t map.entries.maxfd) = true →
      Exact map (encode map.entries) := by
  refine ⟨fun m => ?_, FdMap.exact_encode⟩
  have hcast (hm : 0 ≤ m.toInt) :
      4 + (m.toInt + 1) * (1 + (t.handleSize : Int)) =
        ((4 + (m.toInt.toNat + 1) * (1 + t.handleSize) : Nat) : Int) := by
    have htoNat : ((m.toInt.toNat : Nat) : Int) = m.toInt :=
      Int.toNat_of_nonneg hm
    rw [← htoNat]
    push_cast
    rfl
  constructor
  · intro h
    obtain ⟨hm, hfits⟩ := of_tableFits_encodedLen h
    refine ⟨hm, ?_⟩
    rw [hcast hm]
    omega
  · rintro ⟨hm, hfits⟩
    rw [hcast hm] at hfits
    rw [encodedLen_eq hm (by omega), tableFits_iff]
    omega

/-- A 64-bit target. -/
def windows64 : Target where
  handleSize := 8
  littleEndian := true
  wide := by decide

/-- Descriptors 0 and 3, with a gap between them. -/
def gapMap : FdMap windows64 where
  entries := [(⟨0⟩, (10#64, .charDev)), (⟨3⟩, (99#64, .pipe))]
  sorted := by decide
  nonneg := by decide

theorem encode_exact_gap : Exact gapMap (encode gapMap.entries) :=
  (encode_exact windows64).2 gapMap (by decide)

/-! ## The table of a spawn -/

theorem tableFits_mono {m n : Int32} (hm : 0 ≤ m.toInt)
    (hle : m.toInt ≤ n.toInt) (h : tableFits (encodedLen t n) = true) :
    tableFits (encodedLen t m) = true := by
  obtain ⟨hn, hfits⟩ := of_tableFits_encodedLen h
  have hcount : (m.toInt.toNat + 1) * (1 + t.handleSize) ≤
      (n.toInt.toNat + 1) * (1 + t.handleSize) :=
    Nat.mul_le_mul_right _ (by omega)
  rw [encodedLen_eq hm (by omega), tableFits_iff]
  omega

/-- The standard descriptors fit on every target of 32 or 64 bits. -/
theorem tableFits_std (hsize : t.handleSize ≤ 8) {m : Int32}
    (hm : 0 ≤ m.toInt) (hle : m.toInt ≤ 2) :
    tableFits (encodedLen t m) = true := by
  have hcount : (m.toInt.toNat + 1) * (1 + t.handleSize) ≤ 3 * 9 :=
    Nat.mul_le_mul (by omega) (by omega)
  rw [encodedLen_eq hm (by omega), tableFits_iff]
  omega

theorem le_maxConfigured {fds : CommandRecord.FdTable}
    (hsorted : fds.Pairwise fun a b => a.1.raw.toInt < b.1.raw.toInt)
    {e : Fd × ResolvedStdio} (he : e ∈ fds) :
    e.1.raw.toInt ≤ (maxConfigured fds).toInt := by
  rw [maxConfigured]
  cases hlast : fds.getLast? with
  | none =>
      rw [List.getLast?_eq_none_iff.mp hlast] at he
      cases he
  | some last =>
      obtain ⟨before, hbefore⟩ := List.getLast?_eq_some_iff.mp hlast
      rw [hbefore] at he hsorted
      rcases List.mem_append.mp he with he | he
      · have hlt := (List.pairwise_append.mp hsorted).2.2 e he last
          (List.mem_singleton.mpr rfl)
        show e.1.raw.toInt ≤ last.1.raw.toInt
        omega
      · have hsame : e = last := List.mem_singleton.mp he
        show e.1.raw.toInt ≤ last.1.raw.toInt
        exact hsame ▸ Int.le_refl _

theorem classifyEnds_slots {classify : Handle t → Except Error FdKind}
    {ends : List (Fd × Handle t)} :
    ∀ {entries : Entries t}, classifyEnds classify ends = .ok entries →
      entries.map (fun (slot, _) => slot) =
        ends.map fun (slot, _) => slot := by
  induction ends with
  | nil =>
      intro entries h
      cases h
      rfl
  | cons e ends ih =>
      obtain ⟨slot, handle⟩ := e
      intro entries h
      rw [classifyEnds] at h
      obtain ⟨kind, -, htail⟩ := bind_eq_ok h
      obtain ⟨rest, hrest, hentries⟩ := bind_eq_ok htail
      cases hentries
      rw [List.map_cons, List.map_cons, ih hrest]

/-- What `ensure_fd_table_fits` accepts makes an exact table: the child ends
stand at 0, 1, 2 and at configured slots. -/
theorem buildFdTable_fits (hsize : t.handleSize ≤ 8)
    {fds : CommandRecord.FdTable}
    (hsorted : fds.Pairwise fun a b => a.1.raw.toInt < b.1.raw.toInt)
    (hfits : ensureFdTableFits t fds = .ok ())
    {classify : Handle t → Except Error FdKind}
    {ends : List (Fd × Handle t)} (hne : ends ≠ [])
    (hends : ends.Pairwise fun a b => a.1.raw.toInt < b.1.raw.toInt)
    (hslots : ∀ e ∈ ends, 0 ≤ e.1.raw.toInt ∧
      (e.1.raw.toInt ≤ 2 ∨ ∃ target, (e.1, target) ∈ fds))
    {table : FdTable t} (h : buildFdTable classify ends = .ok table) :
    ∃ map : FdMap t, table = encode map.entries ∧ Exact map table := by
  rw [buildFdTable] at h
  obtain ⟨entries, hentries, htable⟩ := bind_eq_ok h
  cases htable
  have hkeys := classifyEnds_slots hentries
  have hkey (e : Fd × (Handle t × FdKind)) (he : e ∈ entries) :
      ∃ end_ ∈ ends, end_.1 = e.1 := by
    have hmem : e.1 ∈ entries.map fun (slot, _) => slot :=
      List.mem_map.mpr ⟨e, he, rfl⟩
    rw [hkeys] at hmem
    exact List.mem_map.mp hmem
  have hslot (e : Fd × (Handle t × FdKind)) (he : e ∈ entries) :
      0 ≤ e.1.raw.toInt ∧
        (e.1.raw.toInt ≤ 2 ∨ ∃ target, (e.1, target) ∈ fds) := by
    obtain ⟨end_, hmem, hfd⟩ := hkey e he
    rw [← hfd]
    exact hslots end_ hmem
  have hmap : (entries.map fun (slot, _) => slot).Pairwise
      fun a b => a.raw.toInt < b.raw.toInt := by
    rw [hkeys]
    exact List.pairwise_map.mpr hends
  have hascending : entries.Pairwise
      fun a b => a.1.raw.toInt < b.1.raw.toInt := by
    rw [List.pairwise_map] at hmap
    exact hmap
  have hnonneg (e : Fd × (Handle t × FdKind)) (he : e ∈ entries) :
      0 ≤ e.1.raw.toInt :=
    (hslot e he).1
  have hfit : tableFits (encodedLen t entries.maxfd) = true := by
    rw [Entries.maxfd]
    cases hlast : entries.getLast? with
    | none =>
        rw [List.getLast?_eq_none_iff.mp hlast] at hkeys
        exact absurd (List.map_eq_nil_iff.mp hkeys.symm) hne
    | some last =>
        have hmem := List.mem_of_getLast? hlast
        obtain ⟨hpos, hstd | ⟨target, hconfigured⟩⟩ := hslot last hmem
        · exact tableFits_std hsize hpos hstd
        · have hmax : tableFits (encodedLen t (maxConfigured fds)) =
              true := by
            by_cases hok :
                tableFits (encodedLen t (maxConfigured fds)) = true
            · exact hok
            · rw [ensureFdTableFits, if_pos (by simpa using hok)] at hfits
              cases hfits
          have hle := le_maxConfigured hsorted hconfigured
          exact tableFits_mono hpos hle hmax
  exact ⟨⟨entries, hascending, hnonneg⟩, rfl,
    FdMap.exact_encode ⟨entries, hascending, hnonneg⟩ hfit⟩

end Cosca.Ports.CrtFds
