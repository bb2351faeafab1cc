import Manejaplus.Sequential.RoleSets
import Manejaplus.Sequential.Success

/-! # Lists of ids that are equal as sets

The query counts rows and the comparison counts entries, so an id that is
listed twice is not the same as an id that is listed once.
-/
namespace Manejaplus
open Effect Prog
set_option autoImplicit false

namespace RoleLists

def AllActive {ρ : Type} (uuid : String → Option String) (id : ρ → String) (status : ρ → Bool)
    (rows : List ρ) (ids : List String) : Prop :=
  ∀ s ∈ ids, ∃ row ∈ rows, uuid s = some (id row) ∧ status row = true

/-- No two entries of the list name the same. -/
def NamesOnce (uuid : String → Option String) (ids : List String) : Prop := (ids.map uuid).Nodup

instance (uuid : String → Option String) (ids : List String) : Decidable (NamesOnce uuid ids) :=
  inferInstanceAs (Decidable (List.Nodup _))

section Counting
variable {ρ : Type} {id name : ρ → String} {t : NamedTable id name} {status : ρ → Bool}
  {uuid : String → Option String} {ids ids' : List String} {found : List ρ}

theorem exists_mapM {α β : Type} {f : α → Option β} {as : List α}
    (h : ∀ a ∈ as, ∃ b, f a = some b) : ∃ bs, as.mapM f = some bs := by
  induction as with
  | nil => exact ⟨[], rfl⟩
  | cons a as ih =>
    obtain ⟨b, hb⟩ := h a List.mem_cons_self
    obtain ⟨bs, hbs⟩ := ih fun a' ha' => h a' (List.mem_cons_of_mem a ha')
    exact ⟨b :: bs, mapM_cons.mpr ⟨b, bs, hb, hbs, rfl⟩⟩

theorem map_of_mapM {α β : Type} {f : α → Option β} {as : List α} {bs : List β}
    (h : as.mapM f = some bs) : as.map f = bs.map some := by
  induction as generalizing bs with
  | nil =>
    cases h
    rfl
  | cons a as ih =>
    obtain ⟨b, bs', hb, hbs, rfl⟩ := mapM_cons.mp h
    rw [List.map_cons, List.map_cons, hb, ih hbs]

/-- The rows that are found depend on the set of the ids only. -/
theorem findByIds_same (hSame : ∀ s, s ∈ ids ↔ s ∈ ids')
    (h : t.findByIds status uuid ids = some found) : t.findByIds status uuid ids' = some found := by
  obtain ⟨read, hRead, rfl⟩ := Option.map_eq_some_iff.mp h
  obtain ⟨_, hTo, hFrom⟩ := mem_mapM hRead
  obtain ⟨read', hRead'⟩ := exists_mapM fun s hs =>
    (hTo s ((hSame s).mpr hs)).imp fun _ hk => hk.2
  obtain ⟨_, hTo', hFrom'⟩ := mem_mapM hRead'
  have hIds : ∀ k, k ∈ read' ↔ k ∈ read := by
    intro k
    constructor
    · intro hk
      obtain ⟨s, hs, hUuid⟩ := hFrom' k hk
      obtain ⟨k', hk', hUuid'⟩ := hTo s ((hSame s).mpr hs)
      cases hUuid.symm.trans hUuid'
      exact hk'
    · intro hk
      obtain ⟨s, hs, hUuid⟩ := hFrom k hk
      obtain ⟨k', hk', hUuid'⟩ := hTo' s ((hSame s).mp hs)
      cases hUuid.symm.trans hUuid'
      exact hk'
  refine Option.map_eq_some_iff.mpr ⟨read', hRead', ?_⟩
  refine List.filter_congr fun row _ => congrArg (· && status row) ?_
  rw [Bool.eq_iff_iff, List.contains_iff_mem, List.contains_iff_mem, hIds]

theorem findByIds_congr (hSame : ∀ s, s ∈ ids ↔ s ∈ ids') :
    t.findByIds status uuid ids = t.findByIds status uuid ids' :=
  Option.ext fun _ => ⟨findByIds_same hSame, findByIds_same fun s => (hSame s).symm⟩

theorem findByIds_of_allActive (h : AllActive uuid id status t.rows ids) :
    ∃ found, t.findByIds status uuid ids = some found := by
  obtain ⟨read, hRead⟩ := exists_mapM fun s hs =>
    (h s hs).elim fun row hRow => ⟨id row, hRow.2.1⟩
  exact ⟨_, Option.map_eq_some_iff.mpr ⟨read, hRead, rfl⟩⟩

/-- As many rows as entries: none is missing, and none is named twice. -/
theorem length_findByIds (h : t.findByIds status uuid ids = some found) :
    found.length = ids.length ↔ AllActive uuid id status t.rows ids ∧ NamesOnce uuid ids := by
  constructor
  · intro hLength
    obtain ⟨read, hRead, hPerm⟩ := NamedTable.perm_findByIds h hLength
    refine ⟨(NamedTable.listed h hLength).named, ?_⟩
    rw [NamesOnce, map_of_mapM hRead]
    exact (hPerm.nodup (NamedTable.nodup_findByIds h)).map fun _ _ => Option.some.inj
  · rintro ⟨hActive, hOnce⟩
    have hNodup := NamedTable.nodup_findByIds h
    obtain ⟨read, hRead, rfl⟩ := Option.map_eq_some_iff.mp h
    obtain ⟨hLength, hTo, hFrom⟩ := mem_mapM hRead
    rw [NamesOnce, map_of_mapM hRead] at hOnce
    rw [← hLength, ← List.length_map (f := id)]
    refine ((List.perm_ext_iff_of_nodup hNodup (List.Nodup.of_map _ hOnce)).mpr fun k => ?_).length_eq
    simp only [List.mem_map, List.mem_filter, Bool.and_eq_true, List.contains_iff_mem]
    constructor
    · rintro ⟨row, ⟨_, hk, _⟩, rfl⟩
      exact hk
    · intro hk
      obtain ⟨s, hs, hUuid⟩ := hFrom k hk
      obtain ⟨row, hRow, hUuid', hStatus⟩ := hActive s hs
      cases hUuid.symm.trans hUuid'
      exact ⟨row, ⟨hRow, hk, hStatus⟩, rfl⟩

end Counting

/-- How a call goes with all lists of the same ids: a lookup fails, or what it finds is counted. -/
inductive Decided {σ α ρ : Type} (answer : List String → Except Exception α × σ)
    (refusal : Exception) (lookedUp : Prop) (found : Option (List ρ)) (ids : List String) : Prop
  | stopped {e : Exception} {s : σ} : ¬ (lookedUp ∧ found.isSome) → e ≠ refusal →
      (∀ ids', (∀ s, s ∈ ids ↔ s ∈ ids') → answer ids' = (.error e, s)) →
      Decided answer refusal lookedUp found ids
  | counted {rows : List ρ} {accepted : Except Exception α × σ} {s : σ} : lookedUp →
      found = some rows → accepted.1 ≠ .error refusal →
      (∀ ids', (∀ s, s ∈ ids ↔ s ∈ ids') → answer ids' =
        if rows.length ≠ ids'.length then (.error refusal, s) else accepted) →
      Decided answer refusal lookedUp found ids

/-- The two lists have the same outcome and leave the same state, and neither is refused if all of
their ids name active rows. -/
structure TakenAsSet {σ α : Type} (answer : List String → Except Exception α × σ)
    (refusal : Exception) (active : Prop) (ids ids' : List String) : Prop where
  same : answer ids = answer ids'
  accepted : active → (answer ids).1 ≠ .error refusal ∧ (answer ids').1 ≠ .error refusal

section Deciding
variable {ρ σ α : Type} {id name : ρ → String} {t : NamedTable id name} {status : ρ → Bool}
  {uuid : String → Option String} {ids ids' : List String} {refusal : Exception} {lookedUp : Prop}
  {answer : List String → Except Exception α × σ}

theorem allActive_congr (hSame : ∀ s, s ∈ ids ↔ s ∈ ids') :
    AllActive uuid id status t.rows ids ↔ AllActive uuid id status t.rows ids' :=
  forall_congr' fun s => imp_congr (hSame s) Iff.rfl

theorem isSome_of_allActive (h : AllActive uuid id status t.rows ids) :
    (t.findByIds status uuid ids).isSome := by
  obtain ⟨found, hFound⟩ := findByIds_of_allActive h
  rw [hFound]
  rfl

/-- A list is refused once its ids have been looked up, unless each names an active row of its
own. -/
theorem refused_iff (h : Decided answer refusal lookedUp (t.findByIds status uuid ids) ids)
    (hSame : ∀ s, s ∈ ids ↔ s ∈ ids') : (answer ids').1 = .error refusal ↔
      lookedUp ∧ (t.findByIds status uuid ids).isSome ∧
        ¬ (AllActive uuid id status t.rows ids ∧ NamesOnce uuid ids') := by
  cases h with
  | stopped hStopped hOther hAnswer =>
    rw [hAnswer ids' hSame]
    apply iff_of_false (fun hRefused => hOther (Except.error.inj hRefused))
    exact fun h => hStopped ⟨h.1, h.2.1⟩
  | counted hLookedUp hFound hAccepted hAnswer =>
    have hLength := length_findByIds (findByIds_same hSame hFound)
    rw [← allActive_congr hSame] at hLength
    rw [hAnswer ids' hSame, hFound, ← hLength, and_iff_right hLookedUp]
    split
    · rename_i hShort
      exact iff_of_true rfl ⟨rfl, hShort⟩
    · rename_i hWhole
      exact iff_of_false hAccepted fun h => hWhole h.2

theorem answer_eq_iff (h : Decided answer refusal lookedUp (t.findByIds status uuid ids) ids)
    (hSame : ∀ s, s ∈ ids ↔ s ∈ ids') : answer ids = answer ids' ↔
      ((answer ids).1 = .error refusal ↔ (answer ids').1 = .error refusal) := by
  constructor
  · intro hEq
    rw [hEq]
  · intro hRefused
    cases h with
    | stopped _ _ hAnswer => rw [hAnswer ids' hSame, hAnswer ids fun _ => Iff.rfl]
    | counted _ _ hAccepted hAnswer =>
      rw [hAnswer ids' hSame, hAnswer ids fun _ => Iff.rfl] at hRefused ⊢
      split at hRefused <;> split at hRefused <;> rename_i hLength hLength'
      · rw [if_pos hLength, if_pos hLength']
      · exact absurd (hRefused.mp rfl) hAccepted
      · exact absurd (hRefused.mpr rfl) hAccepted
      · rw [if_neg hLength, if_neg hLength']

/-- The outcome and the state are the same unless just one of the lists names a row twice. -/
theorem same_iff (h : Decided answer refusal lookedUp (t.findByIds status uuid ids) ids)
    (hSame : ∀ s, s ∈ ids ↔ s ∈ ids') : answer ids = answer ids' ↔
      ¬ lookedUp ∨ ¬ AllActive uuid id status t.rows ids ∨ (NamesOnce uuid ids ↔ NamesOnce uuid ids') := by
  have hFound := @isSome_of_allActive _ id name t status uuid ids
  rw [answer_eq_iff h hSame, refused_iff h fun _ => Iff.rfl, refused_iff h hSame]
  by_cases hActive : AllActive uuid id status t.rows ids
  · simp only [hActive, hFound hActive, true_and, not_true_eq_false, false_or, and_congr_right_iff,
      not_iff_not, ← imp_iff_not_or]
  · simp only [hActive, false_and, not_false_eq_true, true_or, or_true]

theorem takenAsSet_iff (h : Decided answer refusal lookedUp (t.findByIds status uuid ids) ids)
    (hSame : ∀ s, s ∈ ids ↔ s ∈ ids') :
    TakenAsSet answer refusal (AllActive uuid id status t.rows ids) ids ids' ↔
      ¬ lookedUp ∨ ¬ AllActive uuid id status t.rows ids ∨ (NamesOnce uuid ids ∧ NamesOnce uuid ids') := by
  have hFound := @isSome_of_allActive _ id name t status uuid ids
  have hRefused := refused_iff h fun _ => Iff.rfl
  have hRefused' := refused_iff h hSame
  constructor
  · rintro ⟨_, hAccepted⟩
    by_cases hLooked : lookedUp
    · by_cases hActive : AllActive uuid id status t.rows ids
      · obtain ⟨hNot, hNot'⟩ := hAccepted hActive
        refine .inr (.inr ⟨?_, ?_⟩)
        · by_contra hTwice
          exact hNot (hRefused.mpr ⟨hLooked, hFound hActive, fun hOnce => hTwice hOnce.2⟩)
        · by_contra hTwice
          exact hNot' (hRefused'.mpr ⟨hLooked, hFound hActive, fun hOnce => hTwice hOnce.2⟩)
      · exact .inr (.inl hActive)
    · exact .inl hLooked
  · intro hOnce
    refine ⟨(same_iff h hSame).mpr ?_, fun hActive => ?_⟩
    · exact hOnce.imp_right fun hOnce => hOnce.imp_right fun hOnce => iff_of_true hOnce.1 hOnce.2
    · have hEach : lookedUp → NamesOnce uuid ids ∧ NamesOnce uuid ids' := fun hLooked =>
        (hOnce.resolve_left (not_not_intro hLooked)).resolve_left (not_not_intro hActive)
      constructor
      · intro hNot
        obtain ⟨hLooked, _, hTwice⟩ := hRefused.mp hNot
        exact hTwice ⟨hActive, (hEach hLooked).1⟩
      · intro hNot
        obtain ⟨hLooked, _, hTwice⟩ := hRefused'.mp hNot
        exact hTwice ⟨hActive, (hEach hLooked).2⟩

end Deciding

section Assigning
variable {env : Env} {userId : String} {w : World} {roles : RoleTable}

def rolesRefused : Exception := .error "At least one role is not allowed"

/-- What `assignRole` answers to a list of ids, and the database it leaves. -/
def assigned (env : Env) (userId : String) (w : World) (rolesId : List String) :
    Except Exception UserModel × Database :=
  let answer := run (alone env) (AuthService.assignRole ⟨userId, rolesId⟩) w
  (answer.1, answer.2.db)

/-- Neither the query for the roles nor the one for the user fails. -/
def BothLookedUp (env : Env) (userId : String) (w : World) : Prop :=
  Quiet 2 w.outside ∧ (env.uuid userId).isSome

/-- The end of `assignRole`, once the lengths agree. -/
def assign (userId : String) (roles : List RoleRow) : Option UserEntity → Async UserModel
  | none => Async.throw (.error "The user to assign role does not exist")
  | some user =>
    (UserRepositoryImpl.updateUser userId { user with roles := .val roles }).bind fun updated =>
      .pure (SqlGlobalMapper.mapClass updated)

theorem assignRole_eq (userId : String) (ids : List String) : AuthService.assignRole ⟨userId, ids⟩ =
    (Async.findRoles ids).bind fun roles => (UserRepositoryImpl.getUserById userId).bind fun user =>
      if roles.length ≠ ids.length then Async.throw rolesRefused else assign userId roles user := by
  refine congrArg (Prog.bind (Async.findRoles ids)) (funext fun roles => ?_)
  refine congrArg (Prog.bind (UserRepositoryImpl.getUserById userId)) (funext fun user => ?_)
  cases user <;> rfl

theorem assign_not_refused {found : List RoleRow} {user : Option UserEntity} :
    (run (alone env) (assign userId found user) w).1 ≠ .error rolesRefused := by
  cases user with
  | none => exact fun hRefused => absurd (Except.error.inj hRefused) (by decide)
  | some user =>
    generalize hRun : run (alone env) (assign userId found (some user)) w = next
    obtain ⟨r, w'⟩ := next
    obtain ⟨r', hSave, rfl⟩ := run_map_cases _ hRun
    obtain ⟨_, rfl, _⟩ | hSave := saveUser_cases hSave
    · exact fun hRefused => absurd (Except.error.inj hRefused) (by decide)
    · split at hSave <;> obtain ⟨rfl, _⟩ := hSave
      · exact nofun
      · exact fun hRefused => absurd (Except.error.inj hRefused) (by decide)

theorem findRoles_congr {ids ids' : List String} (hSame : ∀ s, s ∈ ids ↔ s ∈ ids') :
    run (alone env) (Async.findRoles ids') (w.withRoles roles) =
      run (alone env) (Async.findRoles ids) (w.withRoles roles) := by
  have hFound : (w.withRoles roles).db.activeRoles env.uuid ids =
      (w.withRoles roles).db.activeRoles env.uuid ids' :=
    @findByIds_congr _ _ _ roles RoleRow.status env.uuid ids ids' hSame
  rw [Async.findRoles, Async.findRoles, run_store, run_store, World.execStore, World.execStore,
    Database.exec, Database.exec, hFound]

theorem findRoles_error {ids : List String} {e : Exception} {w' : World}
    (hFind : run (alone env) (Async.findRoles ids) (w.withRoles roles) = (.error e, w')) :
    e = .external ∧ ¬ (BothLookedUp env userId w ∧
      (roles.findByIds RoleRow.status env.uuid ids).isSome) := by
  obtain ⟨hFault, hError, _⟩ | ⟨hFault, hExec⟩ := store_cases hFind
  · cases hError
    refine ⟨rfl, fun hLooked => ?_⟩
    cases (hLooked.1.1 0 Nat.zero_lt_two).symm.trans hFault
  · rw [World.execStore, Database.exec, hFault] at hExec
    cases hActive : (w.withRoles roles).db.activeRoles env.uuid ids <;>
      rw [hActive] at hExec <;> cases hExec
    refine ⟨rfl, fun hLooked => ?_⟩
    have hSome : ((w.withRoles roles).db.activeRoles env.uuid ids).isSome := hLooked.2
    rw [hActive] at hSome
    cases hSome

theorem getUser_error {e : Exception} {w' : World}
    (hFind : run (alone env) (UserRepositoryImpl.getUserById userId) (w.withRoles roles).tick =
      (.error e, w')) : e = .external ∧ ¬ BothLookedUp env userId w := by
  obtain ⟨hFault, hError, _⟩ | ⟨hFault, hExec⟩ := store_cases hFind
  · cases hError
    refine ⟨rfl, fun hLooked => ?_⟩
    cases (hLooked.1 1 Nat.one_lt_two).symm.trans hFault
  · rw [World.execStore, Database.exec, hFault] at hExec
    cases hUuid : env.uuid userId <;>
      simp only [UserTable.findOne, UserTable.idCondition, hUuid] at hExec <;> cases hExec
    refine ⟨rfl, fun hLooked => ?_⟩
    have hSome := hLooked.2
    rw [hUuid] at hSome
    cases hSome

theorem getUser_ok {user : Option UserEntity} {w' : World} (hFault : w.choice.fault = false)
    (hFind : run (alone env) (UserRepositoryImpl.getUserById userId) (w.withRoles roles).tick =
      (.ok user, w')) : BothLookedUp env userId w := by
  obtain ⟨hFault₁, ⟨row, hRow, _⟩, rfl⟩ := findUser_ok.mp hFind
  refine ⟨quiet_succ.mpr ⟨hFault, quiet_succ.mpr ⟨hFault₁, quiet_zero _⟩⟩, ?_⟩
  cases hUuid : env.uuid userId with
  | none =>
    simp only [UserTable.findOne, UserTable.idCondition, hUuid] at hRow
    cases hRow
  | some id => rfl

theorem decided_assigned (ids : List String) :
    Decided (assigned env userId (w.withRoles roles)) rolesRefused (BothLookedUp env userId w)
      (roles.findByIds RoleRow.status env.uuid ids) ids := by
  generalize hFind : run (alone env) (Async.findRoles ids) (w.withRoles roles) = next
  obtain ⟨r, w₁⟩ := next
  have hFinds : ∀ ids', (∀ s, s ∈ ids ↔ s ∈ ids') →
      run (alone env) (Async.findRoles ids') (w.withRoles roles) = (r, w₁) :=
    fun ids' hSame => (findRoles_congr hSame).trans hFind
  cases r with
  | error e =>
    obtain ⟨rfl, hFails⟩ := findRoles_error hFind
    refine .stopped (e := .external) (s := w₁.db) hFails (by decide) fun ids' hSame => ?_
    rw [assigned, assignRole_eq, run_bind, hFinds ids' hSame]
  | ok found =>
    obtain ⟨hFault, hActive, rfl⟩ := findRoles_ok.mp hFind
    generalize hUser : run (alone env) (UserRepositoryImpl.getUserById userId)
      (w.withRoles roles).tick = next
    obtain ⟨r, w₂⟩ := next
    cases r with
    | error e =>
      obtain ⟨rfl, hFails⟩ := getUser_error hUser
      refine .stopped (e := .external) (s := w₂.db) (fun hLooked => hFails hLooked.1) (by decide)
        fun ids' hSame => ?_
      rw [assigned, assignRole_eq, run_bind, hFinds ids' hSame]
      simp only
      rw [run_bind, hUser]
    | ok user =>
      let done := run (alone env) (assign userId found user) w₂
      have hDone : (done.1, done.2.db).1 ≠ .error rolesRefused := assign_not_refused
      refine .counted (s := w₂.db) (getUser_ok hFault hUser) hActive hDone fun ids' hSame => ?_
      rw [assigned, assignRole_eq, run_bind, hFinds ids' hSame]
      simp only
      rw [run_bind, hUser]
      simp only
      split <;> rfl

end Assigning

section Creating
variable {env : Env} {roleModel : RoleModel} {w : AccessWorld}

def permissionsRefused : Exception := .error "At least one permission is not allowed"

/-- What `createRole` answers to a list of ids, and the tables it leaves. -/
def created (env : Env) (roleModel : RoleModel) (w : AccessWorld) (permissionsId : List String) :
    Except Exception RoleModel × AccessTables :=
  let answer := run (access env)
    (AuthService.createRole { roleModel with permissionsId := .val permissionsId }) w
  (answer.1, answer.2.tables)

variable (roleModel) in
/-- The list of ids goes through a save and into its answer, not into the tables. -/
theorem saveRole_permissionsId (t : AccessTables) (fresh : String) (permissionsId : Js (List String)) :
    t.saveRole fresh { roleModel with permissionsId } =
      (t.saveRole fresh roleModel).map fun saved =>
        ({ saved.1 with permissionsId }, saved.2) := by
  have hNew : AccessTables.newRole fresh { roleModel with permissionsId } =
      AccessTables.newRole fresh roleModel := rfl
  rw [AccessTables.saveRole, AccessTables.saveRole, hNew]
  cases AccessTables.newRole fresh roleModel with
  | none => rfl
  | some row =>
    simp only [Option.bind_eq_bind, Option.bind_some]
    split
    · rfl
    · split <;> rfl

/-- The end of `createRole`, once the lengths agree. -/
def create (roleModel : RoleModel) (permissionsId : List String) (permissions : List PermissionRow) :
    AuthAsync RoleModel :=
  (AuthRepositoryImpl.createRole { roleModel with
      permissionsId := .val permissionsId, permissions := .val permissions }).bind fun created =>
    .pure (created.toRoleModel.mapClass (some ["name", "description"]))

theorem run_create (permissionsId : List String) (permissions : List PermissionRow) :
    run (access env) (create roleModel permissionsId permissions) w =
      run (access env) (create roleModel [] permissions) w := by
  have hExec : w.exec env (.saveRole { roleModel with
      permissionsId := .val permissionsId, permissions := .val permissions }) =
      (w.exec env (.saveRole { roleModel with
        permissionsId := .val [], permissions := .val permissions })).map fun saved =>
          ({ saved.1 with permissionsId := .val permissionsId }, saved.2) :=
    saveRole_permissionsId { roleModel with
      permissionsId := .val [], permissions := .val permissions } w.tables (w.tape 0).uuid _
  rw [create, create, AuthRepositoryImpl.createRole, AuthRepositoryImpl.createRole, run_bind, run_bind,
    run_perform, run_perform, access, access, hExec]
  cases (w.tape 0).fault with
  | true => rfl
  | false => cases w.exec env (.saveRole _) <;> rfl

theorem create_not_refused {permissionsId : List String} {permissions : List PermissionRow} :
    (run (access env) (create roleModel permissionsId permissions) w).1 ≠ .error permissionsRefused := by
  generalize hRun : run (access env) (create roleModel permissionsId permissions) w = next
  obtain ⟨r, w'⟩ := next
  obtain ⟨r', hSave, rfl⟩ := run_map_cases _ hRun
  rw [AuthRepositoryImpl.createRole, run_perform, access] at hSave
  split at hSave
  · cases hSave
    exact fun hRefused => absurd (Except.error.inj hRefused) (by decide)
  · split at hSave <;> cases hSave
    · exact fun hRefused => by cases hRefused
    · exact fun hRefused => absurd (Except.error.inj hRefused) (by decide)

theorem run_findPermissions (ids : List String) :
    run (access env) (AuthRepositoryImpl.findPermissionsByIds ids) w =
      if (w.tape 0).fault then (.error .external, w.tick)
      else match w.tables.permissions.findByIds PermissionRow.status env.uuid ids with
        | some permissions => (.ok permissions, w.tick)
        | none => (.error .external, w.tick) := by
  rw [AuthRepositoryImpl.findPermissionsByIds, run_perform, access, AccessWorld.exec]
  cases (w.tape 0).fault with
  | true => rfl
  | false => cases w.tables.permissions.findByIds PermissionRow.status env.uuid ids <;> rfl

theorem createRole_eq (ids : List String) :
    AuthService.createRole { roleModel with permissionsId := .val ids } =
      (AuthRepositoryImpl.findPermissionsByIds ids).bind fun permissions =>
        (AuthService.validatePermissions permissions ids).bind fun _ =>
          create roleModel ids permissions := rfl

theorem decided_created (ids : List String) :
    Decided (created env roleModel w) permissionsRefused ((w.tape 0).fault = false)
      (w.tables.permissions.findByIds PermissionRow.status env.uuid ids) ids := by
  have hFinds : ∀ ids', (∀ s, s ∈ ids ↔ s ∈ ids') →
      run (access env) (AuthRepositoryImpl.findPermissionsByIds ids') w =
        run (access env) (AuthRepositoryImpl.findPermissionsByIds ids) w := by
    intro ids' hSame
    rw [run_findPermissions, run_findPermissions, findByIds_congr hSame]
  have hFind := @run_findPermissions env w ids
  cases hFault : (w.tape 0).fault with
  | true =>
    rw [if_pos hFault] at hFind
    refine .stopped (e := .external) (s := w.tables) (fun h => nomatch h.1) (by decide)
      fun ids' hSame => ?_
    rw [created, createRole_eq, run_bind, hFinds ids' hSame, hFind]
    rfl
  | false =>
    rw [hFault, if_neg Bool.false_ne_true] at hFind
    cases hFound : w.tables.permissions.findByIds PermissionRow.status env.uuid ids with
    | none =>
      rw [hFound] at hFind
      refine .stopped (e := .external) (s := w.tables) (fun h => nomatch h.2) (by decide)
        fun ids' hSame => ?_
      rw [created, createRole_eq, run_bind, hFinds ids' hSame, hFind]
      rfl
    | some permissions =>
      rw [hFound] at hFind
      let done := run (access env) (create roleModel [] permissions) w.tick
      have hDone : (done.1, done.2.tables).1 ≠ .error permissionsRefused := create_not_refused
      refine .counted (s := w.tables) rfl rfl hDone fun ids' hSame => ?_
      rw [created, createRole_eq, run_bind, hFinds ids' hSame, hFind]
      simp only
      rw [AuthService.validatePermissions]
      split
      · rfl
      · rw [run_bind, pure_eq, run_pure]
        simp only
        rw [run_create]

end Creating

end RoleLists

open RoleLists in
/-- Lists are taken as the sets of their ids where a query fails, where an id names no active row, or
where no row is named twice. -/
theorem ids_taken_as_set_iff (env : Env) (ids ids' : List String)
    (hSame : ∀ s, s ∈ ids ↔ s ∈ ids') :
    (∀ (userId : String) (w : World) (roles : RoleTable),
      TakenAsSet (assigned env userId (w.withRoles roles)) rolesRefused
          (AllActive env.uuid RoleRow.id RoleRow.status roles.rows ids) ids ids' ↔
        ¬ BothLookedUp env userId w ∨ ¬ AllActive env.uuid RoleRow.id RoleRow.status roles.rows ids ∨
          (NamesOnce env.uuid ids ∧ NamesOnce env.uuid ids')) ∧
    ∀ (roleModel : RoleModel) (w : AccessWorld),
      TakenAsSet (created env roleModel w) permissionsRefused
          (AllActive env.uuid PermissionRow.id PermissionRow.status w.tables.permissions.rows ids)
          ids ids' ↔
        ¬ (w.tape 0).fault = false ∨
          ¬ AllActive env.uuid PermissionRow.id PermissionRow.status w.tables.permissions.rows ids ∨
            (NamesOnce env.uuid ids ∧ NamesOnce env.uuid ids') :=
  ⟨fun _ _ _ => takenAsSet_iff (decided_assigned ids) hSame,
    fun _ _ => takenAsSet_iff (decided_created ids) hSame⟩

namespace Sample

def firstId : String := "5f64a1de-27b9-4cc0-9a51-3d1f0b7c8e92"

def secondId : String := "9b2f2c52-7a3e-4f0e-8d8b-0a4c5d6e7f80"

def twoRoles : RoleTable where
  rows := [⟨firstId, "READER", "reads", true⟩, ⟨secondId, "WRITER", "writes", true⟩]
  nodupId := by decide
  nodupName := by decide

def readAndWrite : PermissionTable where
  rows := [⟨firstId, "READ", "to read", true⟩, ⟨secondId, "WRITE", "to write", true⟩]
  nodupId := by decide
  nodupName := by decide

def twoPermissions : AccessWorld :=
  { accessWorld with
    tables := { accessWorld.tables with
      permissions := readAndWrite
      permissionOf := List.forall_mem_nil _ } }

def userWorld : World := world (oneUser { row with id := firstId })

end Sample

open RoleLists in
theorem ids_taken_as_set_iff_sample :
    TakenAsSet (created (Sample.env []) (Sample.reader []) Sample.twoPermissions) permissionsRefused
      (AllActive (Sample.env []).uuid PermissionRow.id PermissionRow.status
        Sample.twoPermissions.tables.permissions.rows [Sample.firstId, Sample.secondId])
      [Sample.firstId, Sample.secondId] [Sample.secondId, Sample.firstId] :=
  ((ids_taken_as_set_iff (Sample.env []) [Sample.firstId, Sample.secondId]
    [Sample.secondId, Sample.firstId] fun s => by simp [or_comm]).2
      (Sample.reader []) Sample.twoPermissions).mpr (.inr (.inr ⟨by decide, by decide⟩))

open RoleLists in
/-- An id that is listed twice is refused, for roles and for permissions. -/
theorem not_ids_taken_as_set : (∀ s, s ∈ [Sample.firstId, Sample.firstId] ↔ s ∈ [Sample.firstId]) ∧
    ¬ TakenAsSet
      (assigned (Sample.env []) Sample.firstId (Sample.userWorld.withRoles Sample.twoRoles)) rolesRefused
      (AllActive (Sample.env []).uuid RoleRow.id RoleRow.status Sample.twoRoles.rows
        [Sample.firstId, Sample.firstId])
      [Sample.firstId, Sample.firstId] [Sample.firstId] ∧
    ¬ TakenAsSet (created (Sample.env []) (Sample.reader []) Sample.twoPermissions) permissionsRefused
      (AllActive (Sample.env []).uuid PermissionRow.id PermissionRow.status
        Sample.twoPermissions.tables.permissions.rows [Sample.firstId, Sample.firstId])
      [Sample.firstId, Sample.firstId] [Sample.firstId] := by
  refine ⟨fun s => by simp, fun hTaken => ?_, fun hTaken => ?_⟩ <;>
    exact absurd (congrArg Prod.fst hTaken.same) (by decide +kernel)

end Manejaplus
