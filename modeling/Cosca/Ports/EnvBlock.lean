import Cosca.Ports.MarkerPaths
import Cosca.Verified.Journal

/-!
# What the environment block lists

`build_env_block_from` keeps its variables in a map under their folded keys
and writes the map out.  The map is what the journal of its writes leaves
behind: the base first, then the operations in order.

## Main results

* `buildEnvBlockFrom_decodes`: the block is read back as the variables that
  were written last, in the order of their folded keys.
* `unmerged_iff`: variables whose names differ in length are all listed
  exactly when none is written over by another name of its folded key.
-/

namespace Cosca.Ports.EnvBlock

open Cosca.Ports.CommandRecord
open Cosca.Ports.Errors
open Cosca.Ports.NestedMarker
open Cosca.Ports.SpawnEnv
open Cosca.Verified.Block
open Cosca.Verified.Journal

/-! ## Sorted maps -/

section

variable {K V : Type} [Ord K]

/-- The entries of a `BTreeMap`. -/
def Sorted (map : List (K × V)) : Prop :=
  map.Pairwise fun a b => compare a.1 b.1 = .lt

variable [Std.TransOrd K] [Std.LawfulEqOrd K]

theorem Sorted.insert {map : List (K × V)} (h : Sorted map) (key : K)
    (value : V) : Sorted (insertEntry key value map) := by
  induction map with
  | nil => exact List.pairwise_singleton _ _
  | cons head map ih =>
      obtain ⟨k, v⟩ := head
      obtain ⟨hhead, hrest⟩ := List.pairwise_cons.mp h
      rw [insertEntry]
      cases hcompare : compare key k with
      | lt =>
          refine List.pairwise_cons.mpr ⟨fun entry hmem => ?_, h⟩
          rcases List.mem_cons.mp hmem with rfl | hmem
          · exact hcompare
          · exact Std.TransCmp.lt_trans hcompare (hhead entry hmem)
      | eq =>
          have hk : key = k := Std.LawfulEqOrd.eq_of_compare hcompare
          exact List.pairwise_cons.mpr ⟨hk ▸ hhead, hrest⟩
      | gt =>
          refine List.pairwise_cons.mpr ⟨fun entry hmem => ?_, ih hrest⟩
          rcases of_mem_insertEntry hmem with rfl | hmem
          · exact Std.OrientedCmp.gt_iff_lt.mp hcompare
          · exact hhead entry hmem

omit [Std.TransOrd K] [Std.LawfulEqOrd K] in
theorem Sorted.remove [DecidableEq K] {map : List (K × V)} (h : Sorted map)
    (key : K) : Sorted (removeEntry key map) :=
  List.Pairwise.filter _ h

omit [Std.LawfulEqOrd K] in
/-- A key has one entry. -/
theorem Sorted.unique {map : List (K × V)} (h : Sorted map) {a b : K × V}
    (ha : a ∈ map) (hb : b ∈ map) (hkey : a.1 = b.1) : a = b := by
  have hself : compare b.1 b.1 = .eq := Std.ReflCmp.compare_self
  induction map with
  | nil => cases ha
  | cons head map ih =>
      obtain ⟨hhead, hrest⟩ := List.pairwise_cons.mp h
      rcases List.mem_cons.mp ha with rfl | hain
      · rcases List.mem_cons.mp hb with rfl | hbin
        · rfl
        · have hlt := hhead b hbin
          rw [hkey, hself] at hlt
          cases hlt
      · rcases List.mem_cons.mp hb with rfl | hbin
        · have hlt := hhead a hain
          rw [hkey, hself] at hlt
          cases hlt
        · exact ih hrest hain hbin

omit [Std.TransOrd K] in
theorem Sorted.nodup {map : List (K × V)} (h : Sorted map) :
    (map.map Prod.fst).Nodup := by
  refine List.pairwise_map.mpr (List.Pairwise.imp ?_ h)
  intro a b hlt hkey
  have hself : compare b.1 b.1 = .eq := Std.ReflCmp.compare_self
  rw [hkey, hself] at hlt
  cases hlt

theorem Sorted.mem_insert {map : List (K × V)} (h : Sorted map) {key : K}
    {value : V} {entry : K × V} : entry ∈ insertEntry key value map ↔
      entry = (key, value) ∨ (key ≠ entry.1 ∧ entry ∈ map) := by
  constructor
  · intro hmem
    by_cases hkey : key = entry.1
    · exact Or.inl ((h.insert key value).unique hmem
        (mem_insertEntry_self key value map) hkey.symm)
    · rcases of_mem_insertEntry hmem with hentry | hmem
      · exact Or.inl hentry
      · exact Or.inr ⟨hkey, hmem⟩
  · rintro (rfl | ⟨hkey, hmem⟩)
    · exact mem_insertEntry_self key value map
    · exact mem_insertEntry_of_ne value (Ne.symm hkey) hmem

omit [Std.TransOrd K] in
/-- A new key takes no entry's place. -/
theorem insertEntry_perm {map : List (K × V)} {key : K} {value : V}
    (h : ∀ entry ∈ map, entry.1 ≠ key) :
    (insertEntry key value map).Perm ((key, value) :: map) := by
  induction map with
  | nil => exact List.Perm.refl _
  | cons head map ih =>
      obtain ⟨k, v⟩ := head
      obtain ⟨hhead, hrest⟩ := List.forall_mem_cons.mp h
      rw [insertEntry]
      cases hcompare : compare key k with
      | lt => exact List.Perm.refl _
      | eq => exact absurd (Std.LawfulEqOrd.eq_of_compare hcompare).symm hhead
      | gt => exact ((ih hrest).cons (k, v)).trans (List.Perm.swap _ _ map)

/-- One map, written into another one. -/
def insertAll (map entries : List (K × V)) : List (K × V) :=
  entries.foldl (fun map (key, value) => insertEntry key value map) map

theorem Sorted.insertAll (entries : List (K × V)) :
    ∀ {map : List (K × V)}, Sorted map → Sorted (insertAll map entries) := by
  induction entries with
  | nil => exact fun h => h
  | cons entry entries ih => exact fun h => ih (h.insert entry.1 entry.2)

omit [Std.TransOrd K] in
/-- Two maps without a common key are put together. -/
theorem insertAll_perm {entries : List (K × V)} (hentries : Sorted entries) :
    ∀ {map : List (K × V)},
      (∀ a ∈ map, ∀ b ∈ entries, a.1 ≠ b.1) →
        (insertAll map entries).Perm (map ++ entries) := by
  induction entries with
  | nil =>
      intro map _
      rw [List.append_nil]
      exact List.Perm.refl map
  | cons entry entries ih =>
      intro map hapart
      obtain ⟨hhead, hrest⟩ := List.pairwise_cons.mp hentries
      have hnew : ∀ a ∈ map, a.1 ≠ entry.1 := fun a ha =>
        hapart a ha entry List.mem_cons_self
      have hinsert : (insertEntry entry.1 entry.2 map).Perm (entry :: map) :=
        insertEntry_perm hnew
      have hstep : ∀ a ∈ insertEntry entry.1 entry.2 map,
          ∀ b ∈ entries, a.1 ≠ b.1 := by
        intro a ha b hb
        rcases of_mem_insertEntry ha with rfl | ha
        · intro hkey
          have hlt := hhead b hb
          have hself : compare b.1 b.1 = .eq := Std.ReflCmp.compare_self
          rw [show entry.1 = b.1 from hkey, hself] at hlt
          cases hlt
        · exact hapart a ha b (List.mem_cons_of_mem entry hb)
      have htail : (EnvBlock.insertAll (insertEntry entry.1 entry.2 map)
          entries).Perm (insertEntry entry.1 entry.2 map ++ entries) :=
        ih hrest hstep
      have happend := hinsert.append_right entries
      exact (htail.trans happend).trans List.perm_middle.symm

end

/-! ## The map and its journal -/

section

variable {U : Type}

/-- The write of an operation. -/
def opEntry : EnvOp (List U) → Entry (List U) (List U)
  | .set key value => .put key value
  | .remove key => .drop key
  | .clear => .wipe

/-- The base, written one variable after the other, and the operations. -/
def writes (base : List (Var U)) (ops : List (EnvOp (List U))) :
    List (EnvOp (List U)) :=
  base.map (fun (key, value) => .set key value) ++ ops

/-- The journal of `build_env_block_from`. -/
def journal (base : List (Var U)) (ops : List (EnvOp (List U))) :
    List (Entry (List U) (List U)) :=
  (writes base ops).map opEntry

variable [DecidableEq U] [Ord U] (sys : System U)

/-- The variables that the block lists. -/
def listed (base : List (Var U)) (ops : List (EnvOp (List U))) :
    List (Var U) :=
  (ops.foldl (applyOp sys) (varMap sys.foldKey base)).map fun (_, var) => var

/-- The last writer of each folded key. -/
def lastWriter (base : List (Var U)) (ops : List (EnvOp (List U))) :
    List U → Option (Var U) :=
  stored sys.foldKey (journal base ops)

/-- The map holds what the store holds. -/
structure Represents (map : List (List U × Var U))
    (store : List U → Option (Var U)) : Prop where
  sorted : Sorted map
  mem_iff : ∀ key var, (key, var) ∈ map ↔ store key = some var

variable {sys}

/-- One operation keeps the map and the store together. -/
theorem Represents.apply [Std.TransOrd U] [Std.LawfulEqOrd U]
    {map : List (List U × Var U)} {store : List U → Option (Var U)}
    (h : Represents map store) (op : EnvOp (List U)) :
    Represents (applyOp sys map op)
      ((opEntry op).apply sys.foldKey store) := by
  cases op with
  | set name value =>
      refine ⟨h.sorted.insert _ _, fun key var => ?_⟩
      show (key, var) ∈ insertEntry (sys.foldKey name) (name, value) map ↔
        (if sys.foldKey name = key then some (name, value) else store key) =
          some var
      rw [h.sorted.mem_insert, h.mem_iff]
      by_cases hkey : sys.foldKey name = key
      · simp [hkey, eq_comm]
      · simp [hkey, Ne.symm hkey]
  | remove name =>
      refine ⟨h.sorted.remove _, fun key var => ?_⟩
      show (key, var) ∈ removeEntry (sys.foldKey name) map ↔
        (if sys.foldKey name = key then none else store key) = some var
      rw [removeEntry, List.mem_filter, h.mem_iff]
      by_cases hkey : sys.foldKey name = key
      · simp [hkey]
      · simp [hkey, Ne.symm hkey]
  | clear => exact ⟨List.Pairwise.nil, fun key var => by simp [applyOp, opEntry,
      Entry.apply]⟩

theorem Represents.foldl [Std.TransOrd U] [Std.LawfulEqOrd U]
    (ops : List (EnvOp (List U))) :
    ∀ {map : List (List U × Var U)} {store : List U → Option (Var U)},
      Represents map store →
        Represents (ops.foldl (applyOp sys) map)
          (replay sys.foldKey (ops.map opEntry) store) := by
  induction ops with
  | nil => exact fun h => h
  | cons op ops ih => exact fun h => ih (h.apply op)

theorem foldl_writes (base : List (Var U)) (ops : List (EnvOp (List U))) :
    ops.foldl (applyOp sys) (varMap sys.foldKey base) =
      (writes base ops).foldl (applyOp sys) [] := by
  rw [writes, List.foldl_append, List.foldl_map]
  rfl

variable [Std.TransOrd U] [Std.LawfulEqOrd U]

/-- The map of `build_env_block_from` is the store of its journal. -/
theorem represents_writes (sys : System U) (base : List (Var U))
    (ops : List (EnvOp (List U))) :
    Represents (ops.foldl (applyOp sys) (varMap sys.foldKey base))
      (lastWriter sys base ops) := by
  rw [foldl_writes]
  exact Represents.foldl (writes base ops)
    ⟨List.Pairwise.nil, fun key var => by simp⟩

theorem mem_listed {base : List (Var U)} {ops : List (EnvOp (List U))}
    {var : Var U} : var ∈ listed sys base ops ↔
      lastWriter sys base ops (sys.foldKey var.1) = some var := by
  have hrep := represents_writes sys base ops
  rw [listed, List.mem_map]
  constructor
  · rintro ⟨⟨key, var'⟩, hmem, rfl⟩
    have hstored := (hrep.mem_iff key var').mp hmem
    have hkey : sys.foldKey var'.1 = key := key_of_stored hstored
    rw [hkey]
    exact hstored
  · intro hstored
    exact ⟨(sys.foldKey var.1, var), (hrep.mem_iff _ _).mpr hstored, rfl⟩

/-- The variables stand in the order of their folded keys. -/
theorem listed_sorted (base : List (Var U)) (ops : List (EnvOp (List U))) :
    (listed sys base ops).Pairwise fun a b =>
      compare (sys.foldKey a.1) (sys.foldKey b.1) = .lt := by
  have hrep := represents_writes sys base ops
  have hkey (entry : List U × Var U)
      (hmem : entry ∈ ops.foldl (applyOp sys) (varMap sys.foldKey base)) :
      sys.foldKey entry.2.1 = entry.1 :=
    key_of_stored ((hrep.mem_iff entry.1 entry.2).mp hmem)
  rw [listed, List.pairwise_map]
  refine hrep.sorted.imp_of_mem fun {a b} ha hb hlt => ?_
  rw [hkey a ha, hkey b hb]
  exact hlt

end

/-! ## The block -/

section

variable {U : Type} [DecidableEq U]

/-- A variable that no block can hold. -/
def HasNul (sys : System U) (var : Var U) : Prop :=
  sys.nul ∈ var.1 ∨ sys.nul ∈ var.2

/-- The block of a list of variables. -/
def blockOf (sys : System U) (vars : List (Var U)) : List U :=
  (if vars.isEmpty then [sys.nul] else []) ++
    terminated sys.nul (envStrings sys vars) ++ [sys.nul]

/-- The variables of a block: its strings up to the first empty one, each cut
at the first `=` that does not open it. -/
def decode (sys : System U) (block : List U) : List (Option (Var U)) :=
  (strings sys.nul block).map (cut sys.eq)

variable {sys : System U}

/-- A variable with a NUL is refused, and none other. -/
theorem blockStrings_error_iff {vars : List (Var U)} :
    (∃ e, blockStrings sys vars = .error e) ↔ ∃ var ∈ vars, HasNul sys var := by
  induction vars with
  | nil => simp [blockStrings]
  | cons var vars ih =>
      obtain ⟨key, value⟩ := var
      simp only [List.mem_cons, exists_eq_or_imp]
      rw [← ih, blockStrings]
      by_cases hkey : sys.nul ∈ key
      · simp [ensureNoNulWide, HasNul, hkey, bind, Except.bind]
      by_cases hvalue : sys.nul ∈ value
      · simp [ensureNoNulWide, HasNul, hkey, hvalue, bind, Except.bind]
      cases hrest : blockStrings sys vars with
      | error e => simp [ensureNoNulWide, hkey, hvalue, bind, Except.bind]
      | ok block => simp [ensureNoNulWide, HasNul, hkey, hvalue, bind,
          Except.bind, pure, Except.pure]

variable [Ord U]

/-- What is built for some operations. -/
theorem buildEnvBlockFrom_eq {base : List (Var U)}
    {ops : List (EnvOp (List U))} (hops : ops ≠ []) :
    buildEnvBlockFrom sys base ops =
      (blockStrings sys (listed sys base ops)).map fun body =>
        some ((if (listed sys base ops).isEmpty then [sys.nul] else []) ++
          body ++ [sys.nul]) := by
  rw [buildEnvBlockFrom, if_neg (by simpa using hops)]
  show (blockStrings sys (listed sys base ops) >>= fun body => _) = _
  cases blockStrings sys (listed sys base ops) with
  | error e => rfl
  | ok body => rfl

theorem buildEnvBlockFrom_none_iff {base : List (Var U)}
    {ops : List (EnvOp (List U))} :
    buildEnvBlockFrom sys base ops = .ok none ↔ ops = [] := by
  by_cases hops : ops = []
  · rw [hops]
    exact ⟨fun _ => rfl, fun _ => rfl⟩
  · rw [buildEnvBlockFrom_eq hops]
    cases blockStrings sys (listed sys base ops) with
    | error e => simpa [Except.map] using hops
    | ok body => simpa [Except.map] using hops

theorem buildEnvBlockFrom_error_iff {base : List (Var U)}
    {ops : List (EnvOp (List U))} (hops : ops ≠ []) :
    (∃ e, buildEnvBlockFrom sys base ops = .error e) ↔
      ∃ var ∈ listed sys base ops, HasNul sys var := by
  rw [← blockStrings_error_iff, buildEnvBlockFrom_eq hops]
  cases blockStrings sys (listed sys base ops) with
  | error e => simp [Except.map]
  | ok body => simp [Except.map]

theorem buildEnvBlockFrom_some {base : List (Var U)}
    {ops : List (EnvOp (List U))} {block : List U}
    (h : buildEnvBlockFrom sys base ops = .ok (some block)) :
    block = blockOf sys (listed sys base ops) ∧
      ∀ s ∈ envStrings sys (listed sys base ops), s ≠ [] ∧ sys.nul ∉ s := by
  have hops : ops ≠ [] := by
    intro hops
    rw [buildEnvBlockFrom_none_iff.mpr hops] at h
    cases h
  rw [buildEnvBlockFrom_eq hops] at h
  obtain ⟨body, hbody, hblock⟩ := map_eq_ok h
  obtain ⟨hterm, hall⟩ := blockStrings_ok hbody
  refine ⟨?_, hall⟩
  rw [blockOf, ← hterm]
  exact (Option.some.inj hblock).symm

omit [Ord U] in
theorem strings_blockOf {vars : List (Var U)}
    (hall : ∀ s ∈ envStrings sys vars, s ≠ [] ∧ sys.nul ∉ s) :
    strings sys.nul (blockOf sys vars) = envStrings sys vars := by
  rw [blockOf]
  exact strings_envStrings hall

omit [Ord U] in
theorem afterBlock_blockOf {vars : List (Var U)} (hne : vars ≠ [])
    (hall : ∀ s ∈ envStrings sys vars, s ≠ [] ∧ sys.nul ∉ s) :
    afterBlock sys.nul (blockOf sys vars) = some [] := by
  cases vars with
  | nil => exact absurd rfl hne
  | cons var vars =>
      exact afterBlock_block sys.nul _ (fun s hs => (hall s hs).1)
        (fun s hs => (hall s hs).2) []

omit [DecidableEq U] [Ord U] in
@[simp] theorem blockOf_nil : blockOf sys [] = [sys.nul, sys.nul] := rfl

omit [Ord U] in
/-- What was joined is cut where it was joined. -/
theorem decode_blockOf {vars : List (Var U)}
    (hall : ∀ s ∈ envStrings sys vars, s ≠ [] ∧ sys.nul ∉ s)
    (hname : ∀ var ∈ vars, IsName sys.eq var.1) :
    decode sys (blockOf sys vars) = vars.map some := by
  rw [decode, strings_blockOf hall, envStrings, List.map_map]
  exact List.map_congr_left fun var hmem =>
    cut_join sys.eq var.1 var.2 (hname var hmem)

end

/-! ## The block, read back -/

section

variable {U : Type} [DecidableEq U] [Ord U]

/-- The block is read back as the variables of a store, in the order of their
folded keys. -/
structure Encodes (sys : System U) (store : List U → Option (Var U))
    (block : List U) (vars : List (Var U)) : Prop where
  decoded : decode sys block = vars.map some
  mem_iff : ∀ key var,
    store key = some var ↔ var ∈ vars ∧ sys.foldKey var.1 = key
  sorted : vars.Pairwise fun a b =>
    compare (sys.foldKey a.1) (sys.foldKey b.1) = .lt
  /-- The first empty string is the end of the block. -/
  ended : vars ≠ [] → afterBlock sys.nul block = some []
  empty : vars = [] → block = [sys.nul, sys.nul]

/-- What is built of a base and a list of operations. -/
structure Decodes (sys : System U) (base : List (Var U))
    (ops : List (EnvOp (List U)))
    (result : Except Error (Option (List U))) : Prop where
  inherits : result = .ok none ↔ ops = []
  rejects : ops ≠ [] → ((∃ e, result = .error e) ↔
    ∃ key var, lastWriter sys base ops key = some var ∧ HasNul sys var)
  encodes : ∀ block, result = .ok (some block) →
    ∃ vars, Encodes sys (lastWriter sys base ops) block vars

/-- Every name that is set can be read back. -/
def SetsNames (sys : System U) (base : List (Var U))
    (ops : List (EnvOp (List U))) : Prop :=
  (∀ var ∈ base, IsName sys.eq var.1) ∧
    ∀ key value, EnvOp.set key value ∈ ops → IsName sys.eq key

variable [Std.TransOrd U] [Std.LawfulEqOrd U] {sys : System U}

/-- Every variable that is listed was set under its name. -/
theorem isName_of_listed {base : List (Var U)} {ops : List (EnvOp (List U))}
    (hnames : SetsNames sys base ops) {var : Var U}
    (hmem : var ∈ listed sys base ops) : IsName sys.eq var.1 := by
  have hput := put_of_stored (mem_listed.mp hmem)
  obtain ⟨op, hop, hentry⟩ := List.mem_map.mp hput
  cases op with
  | set key value =>
      obtain ⟨hkey, hvalue⟩ := Entry.put.inj hentry
      rcases List.mem_append.mp hop with hbase | hset
      · obtain ⟨⟨key', value'⟩, hmem', hset⟩ := List.mem_map.mp hbase
        obtain ⟨rfl, rfl⟩ := EnvOp.set.inj hset
        rw [← hkey]
        exact hnames.1 _ hmem'
      · rw [← hkey]
        exact hnames.2 key value hset
  | remove key => cases hentry
  | clear => cases hentry

theorem lastWriter_eq_some_iff {base : List (Var U)}
    {ops : List (EnvOp (List U))} {key : List U} {var : Var U} :
    lastWriter sys base ops key = some var ↔
      var ∈ listed sys base ops ∧ sys.foldKey var.1 = key := by
  rw [mem_listed]
  constructor
  · intro hstored
    have hkey : sys.foldKey var.1 = key := key_of_stored hstored
    rw [hkey]
    exact ⟨hstored, rfl⟩
  · rintro ⟨hstored, rfl⟩
    exact hstored

end

/-- The environment block is read back as the variables that were written
last, whatever the case tables are. -/
theorem buildEnvBlockFrom_decodes (upcase : UInt16 → UInt16)
    (toUppercase : Char → List Char) (base : List (Var UInt16))
    (ops : List (EnvOp (List UInt16)))
    (hnames : SetsNames (System.windows upcase toUppercase) base ops) :
    Decodes (System.windows upcase toUppercase) base ops
      (buildEnvBlockFrom (System.windows upcase toUppercase) base ops) where
  inherits := buildEnvBlockFrom_none_iff
  rejects hops := by
    rw [buildEnvBlockFrom_error_iff hops]
    constructor
    · rintro ⟨var, hmem, hnul⟩
      exact ⟨_, var, mem_listed.mp hmem, hnul⟩
    · rintro ⟨key, var, hstored, hnul⟩
      exact ⟨var, (lastWriter_eq_some_iff.mp hstored).1, hnul⟩
  encodes block hblock := by
    obtain ⟨rfl, hall⟩ := buildEnvBlockFrom_some hblock
    refine ⟨listed (System.windows upcase toUppercase) base ops, ?_⟩
    exact {
      decoded := decode_blockOf hall fun var => isName_of_listed hnames
      mem_iff := fun key var => lastWriter_eq_some_iff
      sorted := listed_sorted base ops
      ended := fun hne => afterBlock_blockOf hne hall
      empty := fun hempty => by rw [hempty, blockOf_nil] }

/-- The ordinal comparison of Windows, on ASCII. -/
def upcaseAscii (u : UInt16) : UInt16 :=
  if 97 ≤ u ∧ u ≤ 122 then u - 32 else u

/-- `char::to_uppercase`, on ASCII and the sharp s. -/
def toUppercaseSharp (c : Char) : List Char :=
  if c = 'ß' then ['S', 'S'] else [c.toUpper]

/-- `Path=a` and `x=1`, of which the first is set again as `PATH=b` and the
second removed as `X`. -/
theorem buildEnvBlockFrom_decodes_path :
    Decodes (System.windows upcaseAscii toUppercaseSharp)
      [([80, 97, 116, 104], [97]), ([120], [49])]
      [.set [80, 65, 84, 72] [98], .remove [88]]
      (.ok (some [80, 65, 84, 72, 61, 98, 0, 0])) :=
  buildEnvBlockFrom_decodes upcaseAscii toUppercaseSharp
    [([80, 97, 116, 104], [97]), ([120], [49])]
    [.set [80, 65, 84, 72] [98], .remove [88]]
    ⟨by simp [IsName, System.windows], by simp [IsName, System.windows]⟩

/-! ## Names of one folded key -/

section

variable {U : Type} [DecidableEq U] [Ord U]

/-- The variable was written last among the names that the system takes for
its own, and not removed. -/
def LastWritten (sys : System U) (base : List (Var U))
    (ops : List (EnvOp (List U))) (var : Var U) : Prop :=
  stored sys.fold (journal base ops) (sys.fold var.1) = some var

/-- Variables whose names differ in length are both listed. -/
def Unmerged (sys : System U) (base : List (Var U))
    (ops : List (EnvOp (List U))) : Prop :=
  ops ≠ [] → ∀ a b, LastWritten sys base ops a → LastWritten sys base ops b →
    a.1.length ≠ b.1.length →
      a ∈ listed sys base ops ∧ b ∈ listed sys base ops

/-- After its last write a variable is written over: another name of its
folded key is set or removed. -/
def WrittenOver (sys : System U) (base : List (Var U))
    (ops : List (EnvOp (List U))) (var : Var U) : Prop :=
  ∃ before after, journal base ops = before ++ .put var.1 var.2 :: after ∧
    (∀ entry ∈ after, ¬ entry.Touches sys.fold (sys.fold var.1)) ∧
    ∃ entry ∈ after, ∃ other, entry.Names other ∧
      sys.foldKey other = sys.foldKey var.1

variable {sys : System U} {base : List (Var U)} {ops : List (EnvOp (List U))}

/-- A variable is listed as long as nothing is written over it. -/
theorem LastWritten.mem_listed_iff [Std.TransOrd U] [Std.LawfulEqOrd U]
    {var : Var U} (hlast : LastWritten sys base ops var) :
    var ∈ listed sys base ops ↔ ¬ WrittenOver sys base ops var := by
  rw [mem_listed, lastWriter, stored_eq_some_iff]
  constructor
  · rintro ⟨before, after, hjournal, -, hafter⟩ hover
    obtain ⟨before', after', hjournal', hafter', entry, hmem, other, hnames,
      hkey⟩ := hover
    have hsame : after' = after := by
      rw [hjournal] at hjournal'
      refine eq_of_last hjournal'.symm (fun hput => ?_) (fun hput => ?_)
      · exact hafter' _ hput rfl
      · exact hafter _ hput rfl
    rw [hsame] at hmem
    exact hafter entry hmem (hnames.touches hkey)
  · intro hover
    obtain ⟨before, after, hjournal, -, hafter⟩ := stored_eq_some_iff.mp hlast
    refine ⟨before, after, hjournal, rfl, fun entry hmem htouch => hover ?_⟩
    refine ⟨before, after, hjournal, hafter, entry, hmem, ?_⟩
    exact Entry.names_of_touches htouch (hafter entry hmem)

end

/-- Variables whose names differ in length are all listed in the block exactly
when none of them is written over by another name of its folded key. -/
theorem unmerged_iff (upcase : UInt16 → UInt16)
    (toUppercase : Char → List Char) (base : List (Var UInt16))
    (ops : List (EnvOp (List UInt16))) :
    (Unmerged (System.windows upcase toUppercase) base ops ↔
      (ops ≠ [] → ∀ a b,
        LastWritten (System.windows upcase toUppercase) base ops a →
        LastWritten (System.windows upcase toUppercase) base ops b →
        a.1.length ≠ b.1.length →
          ¬ WrittenOver (System.windows upcase toUppercase) base ops a ∧
          ¬ WrittenOver (System.windows upcase toUppercase) base ops b)) ∧
    ∀ block, buildEnvBlockFrom (System.windows upcase toUppercase) base ops =
        .ok (some block) →
      strings 0 block = envStrings (System.windows upcase toUppercase)
        (listed (System.windows upcase toUppercase) base ops) := by
  constructor
  · constructor
    · intro h hops a b ha hb hne
      obtain ⟨hina, hinb⟩ := h hops a b ha hb hne
      exact ⟨ha.mem_listed_iff.mp hina, hb.mem_listed_iff.mp hinb⟩
    · intro h hops a b ha hb hne
      obtain ⟨hfreea, hfreeb⟩ := h hops a b ha hb hne
      exact ⟨ha.mem_listed_iff.mpr hfreea, hb.mem_listed_iff.mpr hfreeb⟩
  · intro block hblock
    obtain ⟨rfl, hall⟩ := buildEnvBlockFrom_some hblock
    exact strings_blockOf hall

/-- The sharp s and `SS` are two names, of which the block lists one. -/
theorem unmerged_sharp :
    buildEnvBlockFrom (System.windows upcaseAscii toUppercaseSharp) []
        [.set [0xDF] [49], .set [83, 83] [50]] =
      .ok (some [83, 83, 61, 50, 0, 0]) ∧
    ¬ Unmerged (System.windows upcaseAscii toUppercaseSharp) []
        [.set [0xDF] [49], .set [83, 83] [50]] := by
  refine ⟨rfl, fun h => ?_⟩
  have hlisted := (h (by simp) ([0xDF], [49]) ([83, 83], [50]) rfl rfl
    (by decide)).1
  revert hlisted
  decide

end Cosca.Ports.EnvBlock
