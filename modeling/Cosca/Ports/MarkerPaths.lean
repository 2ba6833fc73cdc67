import Cosca.Ports.SpawnEnv

/-!
# The root marker and one child's variables

The variables a child gets are those of the parent with the operations of the
command applied, on the raw path and on std's, so that a name has the value of
its last operation, or the parent's.

## Main results

* `raw_environ` and `std_environ`: where a name of the child's environment comes
  from on either path.
-/

namespace Cosca.Ports.NestedMarker

open Cosca.Ports.CommandRecord
open Cosca.Ports.Errors
open Cosca.Ports.SpawnEnv
open Cosca.Verified.Block

/-! ## Maps -/

section

variable {K V : Type} [Ord K]

theorem mem_insertEntry_self (key : K) (value : V) (map : List (K × V)) :
    (key, value) ∈ insertEntry key value map := by
  induction map with
  | nil => exact List.mem_singleton.mpr rfl
  | cons entry map ih =>
      obtain ⟨k, v⟩ := entry
      rw [insertEntry]
      cases compare key k with
      | lt => exact List.mem_cons_self
      | eq => exact List.mem_cons_self
      | gt => exact List.mem_cons_of_mem _ ih

theorem mem_insertEntry_of_ne [Std.LawfulEqOrd K] {key : K} (value : V)
    {map : List (K × V)} {entry : K × V} (hne : entry.1 ≠ key)
    (h : entry ∈ map) : entry ∈ insertEntry key value map := by
  induction map with
  | nil => cases h
  | cons head map ih =>
      obtain ⟨k, v⟩ := head
      rw [insertEntry]
      cases hcompare : compare key k with
      | lt => exact List.mem_cons_of_mem _ h
      | eq =>
          have hk : key = k := Std.LawfulEqOrd.eq_of_compare hcompare
          rcases List.mem_cons.mp h with rfl | h
          · exact absurd hk.symm hne
          · exact List.mem_cons_of_mem _ h
      | gt =>
          rcases List.mem_cons.mp h with rfl | h
          · exact List.mem_cons_self
          · exact List.mem_cons_of_mem _ (ih h)

theorem of_mem_insertEntry {key : K} {value : V} {map : List (K × V)}
    {entry : K × V} (h : entry ∈ insertEntry key value map) :
    entry = (key, value) ∨ entry ∈ map := by
  induction map with
  | nil => exact Or.inl (List.mem_singleton.mp h)
  | cons head map ih =>
      obtain ⟨k, v⟩ := head
      rw [insertEntry] at h
      cases hcompare : compare key k with
      | lt =>
          rw [hcompare] at h
          exact List.mem_cons.mp h
      | eq =>
          rw [hcompare] at h
          exact (List.mem_cons.mp h).imp_right (List.mem_cons_of_mem _)
      | gt =>
          rw [hcompare] at h
          rcases List.mem_cons.mp h with rfl | h
          · exact Or.inr List.mem_cons_self
          · exact (ih h).imp_right (List.mem_cons_of_mem _)

end

/-! ## Names -/

section

variable {U : Type} [DecidableEq U]

/-- The system takes the name for the marker's. -/
def IsMarker (sys : System U) (name : List U) : Prop :=
  sys.fold name = sys.fold sys.nestedEnv

/-- `fold_key` takes the name for the marker's, and the system does not. -/
def Aliased (sys : System U) (name : List U) : Prop :=
  ¬ IsMarker sys name ∧
    ∃ k, IsMarker sys k ∧ sys.foldKey k = sys.foldKey name

/-- Every variable that a process reads in the environment. -/
def EnvironNames (sys : System U) (p : List U → Prop) (env : Environ U) :
    Prop :=
  ∀ entry ∈ env, ∀ name value, cut sys.eq entry = some (name, value) → p name

/-- The name an operation gives, and the name a child reads for it. -/
def OpNames (sys : System U) (p : List U → Prop) :
    EnvOp (List U) → Prop
  | .set key value => p key ∧ EnvironNames sys p [join sys.eq key value]
  | .remove key => p key
  | .clear => True

variable {sys : System U}

theorem hasVar_iff {env : Environ U} : hasVar sys env sys.nestedEnv = true ↔
    ∃ entry ∈ env, ∃ k v, cut sys.eq entry = some (k, v) ∧
      IsMarker sys k := by
  simp [hasVar, varsOs, IsMarker]
  grind

theorem hasVar_of_mem {vars : List (Var U)} {k v : List U}
    (hmem : (k, v) ∈ vars) (hk : IsMarker sys k) (hname : IsName sys.eq k) :
    hasVar sys (envStrings sys vars) sys.nestedEnv = true := by
  refine hasVar_iff.mpr ⟨join sys.eq k v, ?_, k, v, cut_join sys.eq k v hname,
    hk⟩
  exact List.mem_map.mpr ⟨(k, v), hmem, rfl⟩

theorem hasVar_eq_false {env : Environ U}
    (h : EnvironNames sys (fun name => ¬ IsMarker sys name) env) :
    hasVar sys env sys.nestedEnv = false := by
  by_cases hvar : hasVar sys env sys.nestedEnv = true
  · obtain ⟨entry, hmem, k, v, hcut, hk⟩ := hasVar_iff.mp hvar
    exact absurd hk (h entry hmem k v hcut)
  · simpa using hvar

end

/-! ## The map of a child's variables -/

section

variable {U : Type} [DecidableEq U] [Ord U] {sys : System U}

/-- A map keyed by `key` holds the marker. -/
def Marked (sys : System U) (key : List U → List U)
    (map : List (List U × Var U)) : Prop :=
  ∃ k v, (key k, (k, v)) ∈ map ∧ IsMarker sys k ∧ IsName sys.eq k

theorem Marked.insert [Std.LawfulEqOrd U] {key : List U → List U}
    {map : List (List U × Var U)} (h : Marked sys key map) (k v : List U)
    (hk : ∀ k', IsMarker sys k' → key k' = key k →
      IsMarker sys k ∧ IsName sys.eq k) :
    Marked sys key (insertEntry (key k) (k, v) map) := by
  obtain ⟨k', v', hmem, hmarker, hname⟩ := h
  by_cases hsame : key k' = key k
  · exact ⟨k, v, mem_insertEntry_self _ _ _, hk k' hmarker hsame⟩
  · exact ⟨k', v', mem_insertEntry_of_ne _ hsame hmem, hmarker, hname⟩

omit [Ord U] in
theorem Marked.remove {key : List U → List U} {map : List (List U × Var U)}
    (h : Marked sys key map) (k : List U)
    (hk : ∀ k', IsMarker sys k' → key k' ≠ key k) :
    Marked sys key (removeEntry (key k) map) := by
  obtain ⟨k', v', hmem, hmarker, hname⟩ := h
  refine ⟨k', v', ?_, hmarker, hname⟩
  exact List.mem_filter.mpr ⟨hmem, by simpa using hk k' hmarker⟩

omit [DecidableEq U] in
/-- An entry of a map was there or is one of the variables read into it. -/
theorem of_mem_foldl_insertEntry {key : List U → List U}
    {entry : List U × Var U} (vars : List (Var U)) :
    ∀ map : List (List U × Var U),
      entry ∈ vars.foldl (fun map (k, v) => insertEntry (key k) (k, v) map)
        map → entry ∈ map ∨ entry.2 ∈ vars := by
  induction vars with
  | nil => exact fun map h => Or.inl h
  | cons var vars ih =>
      intro map h
      rcases ih _ h with h | h
      · rcases of_mem_insertEntry h with rfl | h
        · exact Or.inr List.mem_cons_self
        · exact Or.inl h
      · exact Or.inr (List.mem_cons_of_mem _ h)

/-- What was read into a map stands in the environment. -/
theorem of_mem_baseMap {key : List U → List U} {env : Environ U}
    {entry : List U × Var U} (h : entry ∈ baseMap sys key env) :
    join sys.eq entry.2.1 entry.2.2 ∈ env := by
  rcases of_mem_foldl_insertEntry _ _ h with h | h
  · cases h
  · obtain ⟨s, hs, hcut⟩ := List.mem_filterMap.mp h
    rw [join_of_cut sys.eq s entry.2.1 entry.2.2 hcut]
    exact hs

/-- Reading variables into a map keeps the marker there, and adds it where it is
one of them. -/
theorem marked_foldl_insertEntry [Std.LawfulEqOrd U] {key : List U → List U}
    (vars : List (Var U)) : ∀ map : List (List U × Var U),
      (∀ k v, (k, v) ∈ vars → IsName sys.eq k ∧ ∀ k', IsMarker sys k' →
        key k' = key k → IsMarker sys k) →
      Marked sys key map ∨ (∃ k v, (k, v) ∈ vars ∧ IsMarker sys k) →
      Marked sys key (vars.foldl
        (fun map (k, v) => insertEntry (key k) (k, v) map) map) := by
  induction vars with
  | nil =>
      rintro map - (h | ⟨k, v, h, -⟩)
      · exact h
      · cases h
  | cons var vars ih =>
      obtain ⟨k, v⟩ := var
      intro map hall h
      obtain ⟨hname, hk⟩ := hall k v List.mem_cons_self
      refine ih _ (fun k' v' h => hall k' v' (List.mem_cons_of_mem _ h)) ?_
      rcases h with h | ⟨k', v', hmem, hmarker⟩
      · exact Or.inl (h.insert k v fun k' hk' hsame =>
          ⟨hk k' hk' hsame, hname⟩)
      · rcases List.mem_cons.mp hmem with hhead | hmem
        · cases hhead
          exact Or.inl ⟨k, v, mem_insertEntry_self _ _ _, hmarker, hname⟩
        · exact Or.inr ⟨k', v', hmem, hmarker⟩

/-- The marker of the environment is in its map, unless an aliased name takes
its place. -/
theorem marked_baseMap [Std.LawfulEqOrd U] {key : List U → List U}
    {env : Environ U} (hvar : hasVar sys env sys.nestedEnv = true)
    (henv : EnvironNames sys (fun name => ∀ k, IsMarker sys k →
      key k = key name → IsMarker sys name) env) :
    Marked sys key (baseMap sys key env) := by
  obtain ⟨s, hs, k, v, hcut, hmarker⟩ := hasVar_iff.mp hvar
  refine marked_foldl_insertEntry _ _ ?_
    (Or.inr ⟨k, v, List.mem_filterMap.mpr ⟨s, hs, hcut⟩, hmarker⟩)
  intro k' v' hmem
  obtain ⟨s', hs', hcut'⟩ := List.mem_filterMap.mp hmem
  exact ⟨isName_of_cut sys.eq hcut', henv s' hs' k' v' hcut'⟩

end

/-! ## The raw path -/

section

variable {U : Type} [DecidableEq U]

omit [DecidableEq U] in
@[simp] theorem envStrings_cons (sys : System U) (key value : List U)
    (vars : List (Var U)) : envStrings sys ((key, value) :: vars) =
      join sys.eq key value :: envStrings sys vars := rfl

theorem nul_not_mem_of_ok {sys : System U} {s : List U} {u : Unit}
    (h : ensureNoNulWide sys s = .ok u) : sys.nul ∉ s := by
  intro hmem
  rw [ensureNoNulWide, if_pos (List.contains_iff_mem.mpr hmem)] at h
  cases h

theorem blockStrings_ok {sys : System U} {vars : List (Var U)} {block : List U}
    (h : blockStrings sys vars = .ok block) :
    block = terminated sys.nul (envStrings sys vars) ∧
      ∀ s ∈ envStrings sys vars, s ≠ [] ∧ sys.nul ∉ s := by
  induction vars generalizing block with
  | nil =>
      cases h
      exact ⟨rfl, fun s hs => nomatch hs⟩
  | cons var vars ih =>
      obtain ⟨key, value⟩ := var
      rw [blockStrings] at h
      obtain ⟨_, hkeyOk, hpair⟩ := bind_eq_ok h
      obtain ⟨_, hvalueOk, hstrings⟩ := bind_eq_ok hpair
      have hkey := nul_not_mem_of_ok hkeyOk
      have hvalue := nul_not_mem_of_ok hvalueOk
      obtain ⟨rest, hrest, hjoined⟩ := bind_eq_ok hstrings
      have hblock : join sys.eq key value ++ sys.nul :: rest = block :=
        Except.ok.inj hjoined
      obtain ⟨hterm, hall⟩ := ih hrest
      constructor
      · rw [← hblock, hterm, envStrings_cons, terminated_cons]
      · intro s hs
        rcases List.mem_cons.mp hs with rfl | hs
        · refine ⟨by simp [join], ?_⟩
          simp [join, hkey, hvalue, sys.eq_ne_nul.symm]
        · exact hall s hs

/-- The strings of a block are those that were written to it. -/
theorem strings_envStrings {sys : System U} {vars : List (Var U)}
    (hall : ∀ s ∈ envStrings sys vars, s ≠ [] ∧ sys.nul ∉ s) :
    strings sys.nul ((if vars.isEmpty then [sys.nul] else []) ++
      terminated sys.nul (envStrings sys vars) ++ [sys.nul]) =
        envStrings sys vars := by
  cases vars with
  | nil => simp [envStrings, terminated, strings, stringsLoop]
  | cons var vars =>
      exact strings_block sys.nul _ (fun s hs => (hall s hs).1)
        (fun s hs => (hall s hs).2) []

variable [Ord U] {sys : System U}

/-- The variables of the raw path. -/
def rawVars (sys : System U) (env : Environ U) (ops : List (EnvOp (List U))) :
    List (List U × Var U) :=
  ops.foldl (applyOp sys) (baseMap sys sys.foldKey env)

/-- The child reads the variables back from its block. -/
theorem raw_environ {env : Environ U} {ops : List (EnvOp (List U))}
    {block : Option (List U)} (h : buildEnvBlock sys env ops = .ok block) :
    blockEnviron sys env block =
      if ops.isEmpty then env
      else envStrings sys ((rawVars sys env ops).map fun (_, var) => var) := by
  rw [buildEnvBlock, buildEnvBlockFrom] at h
  by_cases hops : ops.isEmpty = true
  · rw [if_pos hops] at h ⊢
    cases h
    rfl
  · rw [if_neg hops] at h ⊢
    cases hstrings : blockStrings sys
        ((rawVars sys env ops).map fun (_, var) => var) with
    | error e =>
        rw [rawVars, baseMap] at hstrings
        simp only [hstrings] at h
        cases h
    | ok body =>
        obtain ⟨hbody, hall⟩ := blockStrings_ok hstrings
        rw [rawVars, baseMap] at hstrings
        simp only [hstrings] at h
        have hblock := Except.ok.inj h
        rw [← hblock, blockEnviron]
        show strings sys.nul ((if ((rawVars sys env ops).map
          fun (_, var) => var).isEmpty then [sys.nul] else []) ++ body ++
            [sys.nul]) = _
        rw [hbody]
        exact strings_envStrings hall

/-- The operations that name neither the marker nor an alias of it. -/
def PlainOps (sys : System U) (ops : List (EnvOp (List U))) : Prop :=
  ∀ op ∈ ops, OpNames sys (fun name => ¬ IsMarker sys name) op

def StraightOps (sys : System U) (ops : List (EnvOp (List U))) : Prop :=
  ∀ op ∈ ops, OpNames sys (fun name => ¬ Aliased sys name) op

theorem of_mem_foldl_applyOp {ops : List (EnvOp (List U))} :
    ∀ {map : List (List U × Var U)} {entry : List U × Var U},
      entry ∈ ops.foldl (applyOp sys) map →
        (entry ∈ map ∧ EnvOp.clear ∉ ops) ∨
          EnvOp.set entry.2.1 entry.2.2 ∈ ops := by
  induction ops with
  | nil => exact fun h => Or.inl ⟨h, List.not_mem_nil⟩
  | cons op ops ih =>
      intro map entry h
      rcases ih h with ⟨h, hclear⟩ | h
      · cases op with
        | set key value =>
            rcases of_mem_insertEntry h with rfl | h
            · exact Or.inr List.mem_cons_self
            · exact Or.inl ⟨h, by simp [hclear]⟩
        | remove key =>
            exact Or.inl ⟨(List.mem_filter.mp h).1, by simp [hclear]⟩
        | clear => cases h
      · exact Or.inr (List.mem_cons_of_mem _ h)

/-- The marker stays in the map unless it is cleared or loses its key to an
alias. -/
theorem Marked.foldl_applyOp [Std.LawfulEqOrd U] {ops : List (EnvOp (List U))}
    (hplain : PlainOps sys ops) (hstraight : StraightOps sys ops)
    (hclear : EnvOp.clear ∉ ops) : ∀ {map : List (List U × Var U)},
      Marked sys sys.foldKey map →
        Marked sys sys.foldKey (ops.foldl (applyOp sys) map) := by
  induction ops with
  | nil => exact fun h => h
  | cons op ops ih =>
      intro map h
      refine ih (fun op' h => hplain op' (List.mem_cons_of_mem _ h))
        (fun op' h => hstraight op' (List.mem_cons_of_mem _ h))
        (fun h => hclear (List.mem_cons_of_mem _ h)) ?_
      have hname := hplain op List.mem_cons_self
      have halias := hstraight op List.mem_cons_self
      cases op with
      | set key value =>
          refine h.insert key value fun k hk hsame => ?_
          exact absurd ⟨hname.1, k, hk, hsame⟩ halias.1
      | remove key =>
          refine h.remove key fun k hk hsame => ?_
          exact absurd ⟨hname, k, hk, hsame⟩ halias
      | clear => exact absurd List.mem_cons_self hclear

end

/-! ## The std path -/

section

variable {U : Type} [DecidableEq U] [Ord U] {sys : System U}

theorem applyEnv_clear {ops : List (EnvOp (List U))} :
    ∀ {c : CommandEnv U}, (applyEnv sys c ops).clear = true ↔
      c.clear = true ∨ EnvOp.clear ∈ ops := by
  induction ops with
  | nil => simp [applyEnv]
  | cons op ops ih =>
      intro c
      have hrest := @ih (c.apply sys op)
      rw [applyEnv] at hrest ⊢
      rw [List.foldl_cons, hrest]
      cases op with
      | set key value => simp [CommandEnv.apply]
      | remove key =>
          by_cases hc : c.clear = true
          · simp [CommandEnv.apply, hc]
          · simp [CommandEnv.apply, hc]
      | clear => simp [CommandEnv.apply]

theorem applyEnv_append_set (c : CommandEnv U) (before : List (EnvOp (List U)))
    (key value : List U) :
    (applyEnv sys c (before ++ [.set key value])).vars =
      insertEntry (sys.fold key) (key, some value)
        (applyEnv sys c before).vars := by
  rw [applyEnv, List.foldl_append]
  rfl

/-- What std records of the operations. -/
theorem of_mem_applyEnv {ops : List (EnvOp (List U))} :
    ∀ {c : CommandEnv U} {folded key : List U} {value : Option (List U)},
      (folded, key, value) ∈ (applyEnv sys c ops).vars →
        (folded, key, value) ∈ c.vars ∨ folded = sys.fold key ∧
          match value with
          | some value => EnvOp.set key value ∈ ops
          | none => EnvOp.remove key ∈ ops := by
  induction ops with
  | nil => exact fun h => Or.inl h
  | cons op ops ih =>
      intro c folded key value h
      rcases ih h with h | ⟨hfolded, h⟩
      · cases op with
        | set key' value' =>
            rcases of_mem_insertEntry h with hentry | h
            · cases hentry
              exact Or.inr ⟨rfl, List.mem_cons_self⟩
            · exact Or.inl h
        | remove key' =>
            simp only [CommandEnv.apply] at h
            by_cases hc : c.clear = true
            · rw [if_pos hc] at h
              exact Or.inl (List.mem_filter.mp h).1
            · rw [if_neg hc] at h
              rcases of_mem_insertEntry h with hentry | h
              · cases hentry
                exact Or.inr ⟨rfl, List.mem_cons_self⟩
              · exact Or.inl h
        | clear => cases h
      · refine Or.inr ⟨hfolded, ?_⟩
        cases value with
        | some value => exact List.mem_cons_of_mem _ h
        | none => exact List.mem_cons_of_mem _ h

/-- No record of a plain operation is the marker's. -/
theorem not_isMarker_record {ops : List (EnvOp (List U))}
    (hplain : PlainOps sys ops) {folded key : List U}
    {value : Option (List U)}
    (h : (folded, key, value) ∈ (applyEnv sys CommandEnv.default ops).vars) :
    folded = sys.fold key ∧ ¬ IsMarker sys key := by
  rcases of_mem_applyEnv h with h | ⟨hfolded, h⟩
  · cases h
  · refine ⟨hfolded, ?_⟩
    cases value with
    | some value => exact (hplain _ h).1
    | none => exact hplain _ h

theorem of_mem_foldl_captureVar
    {vars : List (List U × (List U × Option (List U)))} :
    ∀ {map : List (List U × Var U)} {entry : List U × Var U},
      entry ∈ vars.foldl captureVar map → entry ∈ map ∨
        (entry.1, entry.2.1, some entry.2.2) ∈ vars := by
  induction vars with
  | nil => exact fun h => Or.inl h
  | cons var vars ih =>
      intro map entry h
      obtain ⟨folded, key, value⟩ := var
      rcases ih h with h | h
      · cases value with
        | some value =>
            rcases of_mem_insertEntry h with rfl | h
            · exact Or.inr List.mem_cons_self
            · exact Or.inl h
        | none => exact Or.inl (List.mem_filter.mp h).1
      · exact Or.inr (List.mem_cons_of_mem _ h)

/-- The marker comes out of the map or of the records, if nothing recorded
removes it. -/
theorem marked_foldl_captureVar [Std.LawfulEqOrd U]
    {vars : List (List U × (List U × Option (List U)))} :
    ∀ {map : List (List U × Var U)},
      (∀ folded key value, (folded, key, value) ∈ vars →
        folded = sys.fold key ∧ (IsMarker sys key →
          value.isSome = true ∧ IsName sys.eq key)) →
      Marked sys sys.fold map ∨ (∃ folded key value,
        (folded, key, value) ∈ vars ∧ IsMarker sys key) →
      Marked sys sys.fold (vars.foldl captureVar map) := by
  induction vars with
  | nil =>
      rintro map - (h | ⟨folded, key, value, h, -⟩)
      · exact h
      · cases h
  | cons var vars ih =>
      obtain ⟨folded, key, value⟩ := var
      intro map hall h
      obtain ⟨hfolded, hkey⟩ := hall folded key value List.mem_cons_self
      subst hfolded
      refine ih (fun f k v h => hall f k v (List.mem_cons_of_mem _ h)) ?_
      rcases h with h | ⟨folded', key', value', hmem, hmarker⟩
      · left
        cases value with
        | some value =>
            refine h.insert key value fun k hk hsame => ?_
            have hmarker : IsMarker sys key := hsame.symm.trans hk
            exact ⟨hmarker, (hkey hmarker).2⟩
        | none =>
            refine h.remove key fun k hk hsame => ?_
            have hmarker : IsMarker sys key := hsame.symm.trans hk
            exact absurd (hkey hmarker).1 (by simp)
      · rcases List.mem_cons.mp hmem with hhead | hmem
        · cases hhead
          cases value with
          | some value =>
              exact Or.inl ⟨key, value, mem_insertEntry_self _ _ _, hmarker,
                (hkey hmarker).2⟩
          | none => exact absurd (hkey hmarker).1 (by simp)
        · exact Or.inr ⟨folded', key', value', hmem, hmarker⟩

theorem std_environ {c : CommandEnv U} {env child : Environ U}
    (h : c.environ sys env = .ok child) :
    child = if c.isUnchanged then env
      else envStrings sys (c.capture sys env) := by
  rw [CommandEnv.environ] at h
  by_cases hunchanged : c.isUnchanged = true
  · rw [if_pos hunchanged] at h ⊢
    exact (Except.ok.inj h).symm
  · rw [if_neg hunchanged] at h ⊢
    split at h
    · cases h
    · exact (Except.ok.inj h).symm

end

end Cosca.Ports.NestedMarker
