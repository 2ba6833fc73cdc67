import Cosca.Ports.MarkerPaths

/-!
# The root marker along a chain of spawns

The outermost contained spawn writes the marker into its child's environment
and every process below inherits it.

## Main results

* `spawnChain_outermostOnly_iff`: along a chain of contained spawns only the
  first one makes a group exactly when no later one clears its environment.
-/

namespace Cosca.Ports.NestedMarker

open Cosca.Ports.CommandRecord
open Cosca.Ports.Errors
open Cosca.Ports.SpawnEnv
open Cosca.Verified.Block

/-! ## Either path -/

section

variable {U : Type} [DecidableEq U] [Ord U] {sys : System U} {raw : Bool}
  {env child : Environ U} {ops : List (EnvOp (List U))}

/-- The environment of a child after the operations, the marker's among
them. -/
def childEnviron (sys : System U) (raw : Bool) (env : Environ U)
    (ops : List (EnvOp (List U))) : Except Error (Environ U) :=
  if raw then (buildEnvBlock sys env ops).map (blockEnviron sys env)
  else (applyEnv sys CommandEnv.default ops).environ sys env

/-- The environment of a child is its parent's, or it is made of the variables
of a map. -/
theorem childEnviron_ok (h : childEnviron sys raw env ops = .ok child) :
    (child = env ∧ EnvOp.clear ∉ ops ∧
        ∀ before key value, ops ≠ before ++ [EnvOp.set key value]) ∨
      child = envStrings sys
        (if raw then (rawVars sys env ops).map fun (_, var) => var
        else (applyEnv sys CommandEnv.default ops).capture sys env) := by
  rw [childEnviron] at h
  cases raw with
  | true =>
      cases hblock : buildEnvBlock sys env ops with
      | error e =>
          rw [hblock] at h
          cases h
      | ok block =>
          rw [hblock] at h
          have hchild : blockEnviron sys env block = child := Except.ok.inj h
          rw [raw_environ hblock] at hchild
          by_cases hops : ops.isEmpty = true
          · rw [if_pos hops] at hchild
            have hnil : ops = [] := by simpa using hops
            subst hnil
            exact Or.inl ⟨hchild.symm, List.not_mem_nil, by simp⟩
          · rw [if_neg hops] at hchild
            exact Or.inr hchild.symm
  | false =>
      have hchild := std_environ h
      by_cases hunchanged :
          (applyEnv sys CommandEnv.default ops).isUnchanged = true
      · rw [if_pos hunchanged] at hchild
        simp only [CommandEnv.isUnchanged, Bool.and_eq_true,
          Bool.not_eq_true'] at hunchanged
        refine Or.inl ⟨hchild, fun hclear => ?_, ?_⟩
        · rw [applyEnv_clear.mpr (Or.inr hclear)] at hunchanged
          cases hunchanged.1
        · rintro before key value rfl
          rw [applyEnv_append_set] at hunchanged
          have hmem := mem_insertEntry_self (sys.fold key) (key, some value)
            (applyEnv sys CommandEnv.default before).vars
          rw [List.isEmpty_iff.mp hunchanged.2] at hmem
          cases hmem
      · rw [if_neg hunchanged] at hchild
        exact Or.inr hchild

/-- Where the strings of a child come from. -/
theorem of_mem_childEnviron (h : childEnviron sys raw env ops = .ok child)
    {s : List U} (hs : s ∈ child) :
    (s ∈ env ∧ EnvOp.clear ∉ ops) ∨
      ∃ key value, EnvOp.set key value ∈ ops ∧ s = join sys.eq key value := by
  rcases childEnviron_ok h with ⟨rfl, hclear, -⟩ | hchild
  · exact Or.inl ⟨hs, hclear⟩
  · rw [hchild] at hs
    obtain ⟨⟨key, value⟩, hvar, rfl⟩ := List.mem_map.mp hs
    cases raw with
    | true =>
        obtain ⟨⟨folded, var⟩, hentry, rfl⟩ := List.mem_map.mp hvar
        rcases of_mem_foldl_applyOp hentry with ⟨hbase, hclear⟩ | hset
        · exact Or.inl ⟨of_mem_baseMap hbase, hclear⟩
        · exact Or.inr ⟨_, _, hset, rfl⟩
    | false =>
        obtain ⟨⟨folded, var⟩, hentry, rfl⟩ := List.mem_map.mp hvar
        rcases of_mem_foldl_captureVar hentry with hbase | hrecord
        · by_cases hclear :
              (applyEnv sys CommandEnv.default ops).clear = true
          · rw [if_pos hclear] at hbase
            cases hbase
          · rw [if_neg hclear] at hbase
            exact Or.inl ⟨of_mem_baseMap hbase, fun h =>
              hclear (applyEnv_clear.mpr (Or.inr h))⟩
        · rcases of_mem_applyEnv hrecord with hnil | ⟨-, hset⟩
          · cases hnil
          · exact Or.inr ⟨_, _, hset, rfl⟩

/-- The names a child reads are names of its parent or of the operations. -/
theorem childEnviron_names {p : List U → Prop}
    (h : childEnviron sys raw env ops = .ok child)
    (henv : EnvOp.clear ∉ ops → EnvironNames sys p env)
    (hops : ∀ op ∈ ops, OpNames sys p op) : EnvironNames sys p child := by
  intro s hs
  rcases of_mem_childEnviron h hs with ⟨hmem, hclear⟩ | ⟨key, value, hset, rfl⟩
  · exact henv hclear s hmem
  · exact (hops _ hset).2 _ List.mem_cons_self

/-- The operations keep the marker of the parent. -/
theorem childEnviron_keeps [Std.LawfulEqOrd U]
    (h : childEnviron sys raw env ops = .ok child)
    (hvar : hasVar sys env sys.nestedEnv = true)
    (hclear : EnvOp.clear ∉ ops) (hplain : PlainOps sys ops)
    (hstraight : raw = true → StraightOps sys ops ∧
      EnvironNames sys (fun name => ¬ Aliased sys name) env) :
    hasVar sys child sys.nestedEnv = true := by
  rcases childEnviron_ok h with ⟨rfl, -, -⟩ | hchild
  · exact hvar
  · rw [hchild]
    cases raw with
    | true =>
        obtain ⟨hops, henv⟩ := hstraight rfl
        have hbase : Marked sys sys.foldKey (baseMap sys sys.foldKey env) := by
          refine marked_baseMap hvar fun s hs name value hcut k hk hsame => ?_
          by_cases hmarker : IsMarker sys name
          · exact hmarker
          · exact absurd ⟨hmarker, k, hk, hsame⟩ (henv s hs name value hcut)
        obtain ⟨k, v, hmem, hk, hname⟩ :=
          hbase.foldl_applyOp hplain hops hclear
        exact hasVar_of_mem (List.mem_map.mpr ⟨_, hmem, rfl⟩) hk hname
    | false =>
        have hbase : Marked sys sys.fold (baseMap sys sys.fold env) :=
          marked_baseMap hvar fun s hs name value hcut k hk hsame =>
            hsame.symm.trans hk
        have hnot : ¬ (applyEnv sys CommandEnv.default ops).clear = true := by
          intro hc
          rcases applyEnv_clear.mp hc with hc | hc
          · cases hc
          · exact hclear hc
        obtain ⟨k, v, hmem, hk, hname⟩ := marked_foldl_captureVar
          (fun folded key value hrecord =>
            ⟨(not_isMarker_record hplain hrecord).1, fun hk =>
              absurd hk (not_isMarker_record hplain hrecord).2⟩)
          (Or.inl hbase)
        refine hasVar_of_mem (List.mem_map.mpr ⟨(sys.fold k, (k, v)), ?_, rfl⟩)
          hk hname
        rw [if_neg hnot]
        exact hmem

/-- The root's marker is written whatever the operations before it did. -/
theorem childEnviron_marks [Std.LawfulEqOrd U] (hplain : PlainOps sys ops)
    (h : childEnviron sys raw env (ops ++ [.set sys.nestedEnv sys.one]) =
      .ok child) : hasVar sys child sys.nestedEnv = true := by
  rcases childEnviron_ok h with ⟨-, -, hnot⟩ | hchild
  · exact absurd rfl (hnot ops sys.nestedEnv sys.one)
  · rw [hchild]
    cases raw with
    | true =>
        have hmem : (sys.foldKey sys.nestedEnv, (sys.nestedEnv, sys.one)) ∈
            rawVars sys env (ops ++ [.set sys.nestedEnv sys.one]) := by
          rw [rawVars, List.foldl_append]
          exact mem_insertEntry_self _ _ _
        exact hasVar_of_mem (List.mem_map.mpr ⟨_, hmem, rfl⟩) rfl
          sys.isName_nestedEnv
    | false =>
        have hrecord : (sys.fold sys.nestedEnv, sys.nestedEnv, some sys.one) ∈
            (applyEnv sys CommandEnv.default
              (ops ++ [.set sys.nestedEnv sys.one])).vars := by
          rw [applyEnv_append_set]
          exact mem_insertEntry_self _ _ _
        have hall : ∀ folded key value, (folded, key, value) ∈
            (applyEnv sys CommandEnv.default
              (ops ++ [.set sys.nestedEnv sys.one])).vars →
            folded = sys.fold key ∧ (IsMarker sys key →
              value.isSome = true ∧ IsName sys.eq key) := by
          intro folded key value hmem
          rw [applyEnv_append_set] at hmem
          rcases of_mem_insertEntry hmem with hhead | hmem
          · cases hhead
            exact ⟨rfl, fun _ => ⟨rfl, sys.isName_nestedEnv⟩⟩
          · obtain ⟨hfolded, hkey⟩ := not_isMarker_record hplain hmem
            exact ⟨hfolded, fun hk => absurd hk hkey⟩
        obtain ⟨k, v, hmem, hk, hname⟩ := marked_foldl_captureVar hall
          (Or.inr ⟨_, _, _, hrecord, rfl⟩)
        exact hasVar_of_mem (List.mem_map.mpr ⟨(sys.fold k, (k, v)), hmem, rfl⟩)
          hk hname

/-- Cleared, the marker is gone. -/
theorem childEnviron_drops (h : childEnviron sys raw env ops = .ok child)
    (hclear : EnvOp.clear ∈ ops) (hplain : PlainOps sys ops) :
    hasVar sys child sys.nestedEnv = false :=
  hasVar_eq_false (childEnviron_names h (fun hnot => absurd hclear hnot)
    hplain)

end

/-! ## Spawns -/

section

variable {U : Type} [DecidableEq U] [Ord U] {sys : System U}
  {link : Link U} {env : Environ U} {spawned : Spawned U} {mode : ContainMode}

/-- A contained spawn of the default nesting is one of its environment, with
the marker for a root. -/
theorem Link.spawn_eq (hcontain : link.contain = ⟨some mode, .mark⟩) :
    link.spawn sys env =
      (childEnviron sys link.raw env
        (if hasVar sys env sys.nestedEnv then link.envOps
        else link.envOps ++ [.set sys.nestedEnv sys.one])).map fun environ =>
          { containment :=
              if hasVar sys env sys.nestedEnv then .delegated
              else rootContainment sys.platform link.granted mode
            environ } := by
  rw [Link.spawn, childEnviron]
  cases hraw : link.raw with
  | true =>
      simp only [Link.spawnRaw, hcontain, isNested, markerEnv, attachTree]
      cases hasVar sys env sys.nestedEnv with
      | true =>
          simp only [Bool.not_true, Bool.false_and, Bool.false_eq_true,
            if_false, if_true]
          cases buildEnvBlock sys env link.envOps <;> rfl
      | false =>
          simp only [Bool.not_false, Bool.true_and, Bool.false_eq_true,
            if_false, if_true, beq_self_eq_true]
          cases buildEnvBlock sys env
            (link.envOps ++ [.set sys.nestedEnv sys.one]) <;> rfl
  | false =>
      simp only [Link.spawnStd, hcontain, prepare, isNested, attachTree]
      cases hasVar sys env sys.nestedEnv with
      | true =>
          simp only [Bool.not_true, Bool.false_and, Bool.false_eq_true,
            if_false, if_true, Option.isNone_some]
          cases (applyEnv sys CommandEnv.default link.envOps).environ sys
            env <;> rfl
      | false =>
          have happend : (applyEnv sys CommandEnv.default link.envOps).apply
              sys (.set sys.nestedEnv sys.one) =
              applyEnv sys CommandEnv.default
                (link.envOps ++ [.set sys.nestedEnv sys.one]) := by
            rw [applyEnv, applyEnv, List.foldl_append]
            rfl
          simp only [Bool.not_false, Bool.true_and, Bool.false_eq_true,
            if_false, if_true, Option.isNone_some, beq_self_eq_true, happend]
          cases (applyEnv sys CommandEnv.default
            (link.envOps ++ [.set sys.nestedEnv sys.one])).environ sys
              env <;> rfl

theorem rootContainment_ne_delegated (platform : IdentityRecord.Platform)
    (granted : Bool) (mode : ContainMode) :
    rootContainment platform granted mode ≠ .delegated := by
  cases platform <;> cases mode <;> cases granted <;> simp [rootContainment]

/-- The first contained spawn is a root, and marks its child. -/
theorem Link.spawn_root [Std.LawfulEqOrd U]
    (hcontain : link.contain = ⟨some mode, .mark⟩)
    (hvar : hasVar sys env sys.nestedEnv = false)
    (hplain : PlainOps sys link.envOps)
    (h : link.spawn sys env = .ok spawned) :
    spawned.containment ≠ .delegated ∧
      hasVar sys spawned.environ sys.nestedEnv = true := by
  rw [Link.spawn_eq hcontain, hvar] at h
  obtain ⟨child, hchild, rfl⟩ := map_eq_ok h
  exact ⟨rootContainment_ne_delegated _ _ _, childEnviron_marks hplain hchild⟩

/-- A spawn by a marked process is nested, and its child is marked unless the
environment was cleared. -/
theorem Link.spawn_nested [Std.LawfulEqOrd U]
    (hcontain : link.contain = ⟨some mode, .mark⟩)
    (hvar : hasVar sys env sys.nestedEnv = true)
    (hplain : PlainOps sys link.envOps)
    (hstraight : link.raw = true → StraightOps sys link.envOps ∧
      EnvironNames sys (fun name => ¬ Aliased sys name) env)
    (h : link.spawn sys env = .ok spawned) :
    spawned.containment = .delegated ∧
      (hasVar sys spawned.environ sys.nestedEnv = true ↔
        EnvOp.clear ∉ link.envOps) := by
  rw [Link.spawn_eq hcontain, hvar] at h
  obtain ⟨child, hchild, rfl⟩ := map_eq_ok h
  refine ⟨rfl, fun hmarked hclear => ?_, fun hclear => ?_⟩
  · have hgone := childEnviron_drops hchild hclear hplain
    rw [hmarked] at hgone
    cases hgone
  · exact childEnviron_keeps hchild hvar hclear hplain hstraight

/-- The variables of a child are named as its parent's, by the operations, or
as the marker. -/
theorem Link.spawn_names {p : List U → Prop}
    (hcontain : link.contain = ⟨some mode, .mark⟩) (hmarker : p sys.nestedEnv)
    (henv : EnvironNames sys p env)
    (hops : ∀ op ∈ link.envOps, OpNames sys p op)
    (h : link.spawn sys env = .ok spawned) :
    EnvironNames sys p spawned.environ := by
  rw [Link.spawn_eq hcontain] at h
  obtain ⟨child, hchild, rfl⟩ := map_eq_ok h
  refine childEnviron_names hchild (fun _ => henv) ?_
  intro op hop
  split at hop
  · exact hops op hop
  · rcases List.mem_append.mp hop with hop | hop
    · exact hops op hop
    · rw [List.mem_singleton.mp hop]
      refine ⟨hmarker, fun s hs name value hcut => ?_⟩
      rw [List.mem_singleton.mp hs,
        cut_join sys.eq _ _ sys.isName_nestedEnv] at hcut
      cases hcut
      exact hmarker

end

/-! ## Chains -/

section

variable {U : Type} [DecidableEq U] [Ord U] {sys : System U}

/-- The first process is the root of a group, the others are nested in it, and
all of them hold the marker. -/
def OutermostOnly (sys : System U) : List (Spawned U) → Prop
  | [] => True
  | root :: nested =>
      root.containment ≠ .delegated ∧
        hasVar sys root.environ sys.nestedEnv = true ∧
        ∀ s ∈ nested, s.containment = .delegated ∧
          hasVar sys s.environ sys.nestedEnv = true

theorem spawnChain_cons {env : Environ U} {link : Link U}
    {links : List (Link U)} {spawned : List (Spawned U)}
    (h : spawnChain sys env (link :: links) = .ok spawned) :
    ∃ first below, link.spawn sys env = .ok first ∧
      spawnChain sys first.environ links = .ok below ∧
      spawned = first :: below := by
  rw [spawnChain] at h
  obtain ⟨first, hfirst, hrest⟩ := bind_eq_ok h
  obtain ⟨below, hbelow, hspawned⟩ := bind_eq_ok hrest
  exact ⟨first, below, hfirst, hbelow, (Except.ok.inj hspawned).symm⟩

omit [DecidableEq U] [Ord U] in
theorem not_aliased_nestedEnv : ¬ Aliased sys sys.nestedEnv :=
  fun h => h.1 rfl

/-- No variable of a chain with a raw link is aliased. -/
def Straight (sys : System U) (env : Environ U) (links : List (Link U)) :
    Prop :=
  EnvironNames sys (fun name => ¬ Aliased sys name) env ∧
    ∀ link ∈ links, StraightOps sys link.envOps

/-- Below a marked process all are nested and marked exactly when none of the
spawns clears its environment. -/
theorem spawnChain_nested [Std.LawfulEqOrd U] {links : List (Link U)} :
    ∀ {env : Environ U} {spawned : List (Spawned U)},
      spawnChain sys env links = .ok spawned →
      (∀ link ∈ links, ∃ mode, link.contain = ⟨some mode, .mark⟩) →
      hasVar sys env sys.nestedEnv = true →
      (∀ link ∈ links, PlainOps sys link.envOps) →
      ((∃ link ∈ links, link.raw = true) → Straight sys env links) →
      ((∀ s ∈ spawned, s.containment = .delegated ∧
          hasVar sys s.environ sys.nestedEnv = true) ↔
        ∀ link ∈ links, EnvOp.clear ∉ link.envOps) := by
  induction links with
  | nil =>
      intro env spawned h _ _ _ _
      cases h
      simp
  | cons link links ih =>
      intro env spawned h hcontain hvar hplain hstraight
      obtain ⟨mode, hmode⟩ := hcontain link List.mem_cons_self
      obtain ⟨first, below, hfirst, hbelow, rfl⟩ := spawnChain_cons h
      obtain ⟨hdelegated, hmarked⟩ := Link.spawn_nested hmode hvar
        (hplain link List.mem_cons_self) (fun hraw =>
          have hall := hstraight ⟨link, List.mem_cons_self, hraw⟩
          ⟨hall.2 link List.mem_cons_self, hall.1⟩) hfirst
      rw [List.forall_mem_cons, List.forall_mem_cons, ← hmarked]
      have hrest (hvar' : hasVar sys first.environ sys.nestedEnv = true) :=
        ih hbelow (fun l hl => hcontain l (List.mem_cons_of_mem _ hl)) hvar'
          (fun l hl => hplain l (List.mem_cons_of_mem _ hl)) (by
            rintro ⟨l, hl, hraw⟩
            have hall := hstraight ⟨l, List.mem_cons_of_mem _ hl, hraw⟩
            exact ⟨Link.spawn_names hmode not_aliased_nestedEnv hall.1
              (hall.2 link List.mem_cons_self) hfirst,
              fun l' hl' => hall.2 l' (List.mem_cons_of_mem _ hl')⟩)
      constructor
      · rintro ⟨⟨-, hvar'⟩, hall⟩
        exact ⟨hvar', (hrest hvar').mp hall⟩
      · rintro ⟨hvar', hall⟩
        exact ⟨⟨hdelegated, hvar'⟩, (hrest hvar').mpr hall⟩

end

/-- Along a chain of contained spawns only the first one makes a group, and
the marker reaches every process, exactly when no later spawn clears its
environment. -/
theorem spawnChain_outermostOnly_iff {U : Type} [DecidableEq U] [Ord U]
    [Std.LawfulEqOrd U] (sys : System U) (env : Environ U)
    (links : List (Link U)) (spawned : List (Spawned U))
    (hchain : spawnChain sys env links = .ok spawned)
    (hcontain : ∀ link ∈ links, ∃ mode, link.contain = ⟨some mode, .mark⟩)
    (houtermost : hasVar sys env sys.nestedEnv = false)
    (hplain : ∀ link ∈ links, PlainOps sys link.envOps)
    (hstraight : (∃ link ∈ links.tail, link.raw = true) →
      Straight sys env links) :
    OutermostOnly sys spawned ↔
      ∀ link ∈ links.tail, EnvOp.clear ∉ link.envOps := by
  cases links with
  | nil =>
      cases hchain
      simp [OutermostOnly]
  | cons link links =>
      obtain ⟨mode, hmode⟩ := hcontain link List.mem_cons_self
      obtain ⟨first, below, hfirst, hbelow, rfl⟩ := spawnChain_cons hchain
      obtain ⟨hroot, hmarked⟩ := Link.spawn_root hmode houtermost
        (hplain link List.mem_cons_self) hfirst
      have hrest := spawnChain_nested hbelow
        (fun l hl => hcontain l (List.mem_cons_of_mem _ hl)) hmarked
        (fun l hl => hplain l (List.mem_cons_of_mem _ hl)) (by
          intro hraw
          have hall := hstraight hraw
          exact ⟨Link.spawn_names hmode not_aliased_nestedEnv hall.1
            (hall.2 link List.mem_cons_self) hfirst,
            fun l hl => hall.2 l (List.mem_cons_of_mem _ hl)⟩)
      rw [List.tail_cons, ← hrest]
      exact ⟨fun h => h.2.2, fun h => ⟨hroot, hmarked, h⟩⟩

/-- A contained spawn on the std path. -/
def stdLink (ops : List (EnvOp (List UInt8))) : Link UInt8 where
  raw := false
  contain := ⟨some .strongest, .mark⟩
  envOps := ops
  granted := false

theorem spawnChain_outermostOnly_linux :
    OutermostOnly (System.unix .linux)
      [⟨.processGroup, [join 61 (System.unix .linux).nestedEnv [49]]⟩,
        ⟨.delegated, [join 61 (System.unix .linux).nestedEnv [49]]⟩] :=
  (spawnChain_outermostOnly_iff (System.unix .linux) []
    [stdLink [.clear], stdLink []] _ rfl
    (by simp [stdLink]) rfl (by simp [stdLink, PlainOps, OpNames])
    (by simp [stdLink])).mpr (by simp [stdLink])

/-- The second spawn clears its environment: its child is not marked, and the
third spawn makes a group of its own. -/
theorem spawnChain_env_clear :
    spawnChain (System.unix .linux) [] [stdLink [], stdLink [.clear],
        stdLink []] =
      .ok [⟨.processGroup, [join 61 (System.unix .linux).nestedEnv [49]]⟩,
        ⟨.delegated, []⟩,
        ⟨.processGroup, [join 61 (System.unix .linux).nestedEnv [49]]⟩] ∧
    ¬ OutermostOnly (System.unix .linux)
      [⟨.processGroup, [join 61 (System.unix .linux).nestedEnv [49]]⟩,
        ⟨.delegated, []⟩,
        ⟨.processGroup, [join 61 (System.unix .linux).nestedEnv [49]]⟩] := by
  refine ⟨rfl, fun h => ?_⟩
  have hcleared := (h.2.2 _ List.mem_cons_self).2
  cases hcleared

end Cosca.Ports.NestedMarker


