import Conduit.Access.Entitlement

/-!
# Where the resolver agrees with the declared policy

What the resolver does to one model depends only on the rows about it
(`present_iff`): the last active override in id order decides if there is
one, and otherwise a plan version must offer one of the model's enabled
routes. The declared policy asks for "some grant, no block" and for "listed
by a version" instead, so the two agree exactly where no grant has the last
word over a block and where a listed model is offered.
-/

namespace Conduit.Access

/-! ## Building the route maps -/

namespace RouteMaps

theorem addRoutes_routeIds_self (rows : List AccessDb.RouteRow) (modelId : Int) :
    ∀ maps : RouteMaps, ((maps.addRoutes modelId rows).routeIds modelId).Nonempty ↔
      (maps.routeIds modelId).Nonempty ∨ rows ≠ [] := by
  induction rows with
  | nil =>
      intro maps
      simp [addRoutes]
  | cons row rows ih =>
      intro maps
      have hrest := ih (maps.addRoute modelId row)
      have hself : ((maps.addRoute modelId row).routeIds modelId).Nonempty := by
        simp [addRoute]
      simp only [ne_eq, reduceCtorEq, not_false_eq_true, or_true, iff_true]
      exact hrest.mpr (.inl hself)

/-- Routes are added under their own model only. -/
theorem addRoutes_routeIds_ne (rows : List AccessDb.RouteRow) {modelId k : Int}
    (hk : k ≠ modelId) : ∀ maps : RouteMaps,
      (maps.addRoutes modelId rows).routeIds k = maps.routeIds k := by
  induction rows with
  | nil => exact fun _ => rfl
  | cons row rows ih =>
      intro maps
      show ((maps.addRoute modelId row).addRoutes modelId rows).routeIds k = _
      rw [ih]
      exact Function.update_of_ne hk _ _

end RouteMaps

namespace AccessDb

variable (db : AccessDb)

/-- A version adds routes to the models it lists and offers routes for. -/
theorem applyVersion_routeIds (versionId k : Int) (maps : RouteMaps) :
    ((db.applyVersion maps versionId).routeIds k).Nonempty ↔
      (maps.routeIds k).Nonempty ∨
        (k ∈ db.versionModelIds versionId ∧ db.offeredRoutes versionId k ≠ []) := by
  unfold applyVersion
  induction db.versionModelIds versionId generalizing maps with
  | nil => simp
  | cons modelId rest ih =>
      rw [List.foldl_cons, ih, List.mem_cons]
      by_cases hk : k = modelId
      · subst hk
        rw [RouteMaps.addRoutes_routeIds_self]
        tauto
      · rw [RouteMaps.addRoutes_routeIds_ne _ hk]
        tauto

theorem applyVersions_routeIds (versions : List Int) (k : Int) (maps : RouteMaps) :
    ((versions.foldl db.applyVersion maps).routeIds k).Nonempty ↔
      (maps.routeIds k).Nonempty ∨ ∃ v ∈ versions,
        k ∈ db.versionModelIds v ∧ db.offeredRoutes v k ≠ [] := by
  induction versions generalizing maps with
  | nil => simp
  | cons v versions ih =>
      rw [List.foldl_cons, ih, applyVersion_routeIds]
      simp only [List.mem_cons, exists_eq_or_imp]
      tauto

/-- Of the rows about one model the last one decides. -/
theorem applyOverrides_routeIds {k : Int} (hk : db.enabledRoutes k ≠ []) (maps : RouteMaps)
    (rows : List ProjectEntitlementOverride) :
    ((rows.foldl db.applyOverride maps).routeIds k).Nonempty ↔
      match (rows.filter fun r => r.publicModelId = k).getLast? with
      | none => (maps.routeIds k).Nonempty
      | some r => r.effect = .grant := by
  induction rows using List.reverseRecOn with
  | nil => exact Iff.rfl
  | append_singleton rows row ih =>
      rw [List.foldl_append, List.filter_append]
      by_cases hrow : row.publicModelId = k
      · subst hrow
        simp only [List.foldl_cons, List.foldl_nil, decide_true, List.filter_cons_of_pos,
          List.filter_nil, List.getLast?_append, List.getLast?_singleton, Option.some_or]
        unfold applyOverride
        cases row.effect with
        | block => simp [RouteMaps.remove]
        | grant =>
            simp only [RouteMaps.addRoutes_routeIds_self, iff_true]
            exact .inr hk
      · simp only [List.foldl_cons, List.foldl_nil, hrow, decide_false, Bool.false_eq_true,
          not_false_eq_true, List.filter_cons_of_neg, List.filter_nil, List.append_nil]
        rw [← ih]
        unfold applyOverride
        cases row.effect with
        | block => simp [RouteMaps.remove, Function.update_of_ne (Ne.symm hrow)]
        | grant => rw [RouteMaps.addRoutes_routeIds_ne _ (Ne.symm hrow)]

/-! ## Presence of a model -/

/-- Some resolved version lists the model and offers one of its routes. -/
def Offered (projectId : Int) (now : Instant) (modelId : Int) : Prop :=
  ∃ v ∈ db.resolvedVersions projectId now,
    modelId ∈ db.versionModelIds v ∧ db.offeredRoutes v modelId ≠ []

/-- The active overrides of the project about one model, in id order. -/
def modelOverrides (projectId : Int) (now : Instant) (modelId : Int) :
    List ProjectEntitlementOverride :=
  (db.activeOverrides projectId now).filter fun r => r.publicModelId = modelId

theorem mem_enabledModels {m : Model} :
    m ∈ db.enabledModels ↔ m ∈ db.models ∧ m.status = .enabled ∧ m.deletedAt = 0 := by
  unfold enabledModels
  rw [List.mem_insertionSort, List.mem_filter]
  simp

variable {db}

/-- An enabled model is present exactly when it has a route. -/
theorem present_iff_routeIds {projectId : Int} {now : Instant} {m : Model}
    (hm : m ∈ db.enabledModels) :
    ((resolveEffectiveProjectAccess db projectId now).routesByModel m.modelId).isSome ↔
      ((db.resolveRouteMaps projectId now).routeIds m.id).Nonempty := by
  simp only [resolveEffectiveProjectAccess, Option.isSome_map, List.getLast?_isSome, ne_eq,
    List.filter_eq_nil_iff]
  constructor
  · intro h
    -- the row found under the name is `m`: the name is a key
    simp only [not_forall, Bool.and_eq_true, decide_eq_true_eq, not_not] at h
    obtain ⟨m', hm', hname, hne⟩ := h
    have hold := (db.mem_enabledModels).mp hm
    have hnew := (db.mem_enabledModels).mp hm'
    obtain rfl := db.models_by_model_id m' hnew.1 m hold.1 hname (hnew.2.2.trans hold.2.2.symm)
    exact hne
  · intro h hnone
    exact hnone m hm (by simp [h])

/-- What the resolver does to an enabled model with an enabled route. -/
theorem present_iff {projectId : Int} {now : Instant} {m : Model} (hm : m ∈ db.enabledModels)
    (hroute : db.enabledRoutes m.id ≠ []) :
    ((resolveEffectiveProjectAccess db projectId now).routesByModel m.modelId).isSome ↔
      match (db.modelOverrides projectId now m.id).getLast? with
      | none => db.Offered projectId now m.id
      | some r => r.effect = .grant := by
  rw [present_iff_routeIds hm, resolveRouteMaps, applyOverrides_routeIds db hroute]
  show (match (db.modelOverrides projectId now m.id).getLast? with
      | none => _
      | some r => _) ↔ _
  cases (db.modelOverrides projectId now m.id).getLast? with
  | none =>
      simp only [applyVersions_routeIds, RouteMaps.empty, Finset.not_nonempty_empty, false_or]
      exact Iff.rfl
  | some r => exact Iff.rfl

end AccessDb

/-! ## The declared decision -/

theorem mem_modelOverrides {db : AccessDb} {projectId : Int} {now : Instant} {modelId : Int}
    {r : ProjectEntitlementOverride} :
    r ∈ db.modelOverrides projectId now modelId ↔
      r ∈ db.overridesOf projectId ∧ r.publicModelId = modelId ∧ r.isActiveAt now = true := by
  unfold AccessDb.modelOverrides AccessDb.activeOverrides AccessDb.overridesOf
  simp only [List.mem_filter, List.mem_insertionSort, Bool.and_eq_true, decide_eq_true_eq]
  tauto

private instance : Std.Total fun a b : ProjectEntitlementOverride => a.id ≤ b.id where
  total a b := Int.le_total a.id b.id

private instance : IsTrans ProjectEntitlementOverride fun a b => a.id ≤ b.id where
  trans _ _ _ hab hbc := Int.le_trans hab hbc

/-- The rows come in id order, so the last one has the largest id. -/
theorem id_le_getLast {db : AccessDb} {projectId : Int} {now : Instant} {modelId : Int}
    {r : ProjectEntitlementOverride}
    (hr : (db.modelOverrides projectId now modelId).getLast? = some r) :
    ∀ b ∈ db.modelOverrides projectId now modelId, b.id ≤ r.id := by
  have hsorted : (db.modelOverrides projectId now modelId).Pairwise fun a b => a.id ≤ b.id :=
    (List.pairwise_insertionSort _ _).filter _
  obtain ⟨before, heq⟩ := List.getLast?_eq_some_iff.mp hr
  rw [heq] at hsorted ⊢
  intro b hb
  rcases List.mem_append.mp hb with hbefore | hlast
  · exact (List.pairwise_append.mp hsorted).2.2 b hbefore r (List.mem_singleton_self r)
  · rw [List.mem_singleton.mp hlast]

/-- The declared decision in terms of the active overrides about the model. -/
theorem allowed_iff (db : AccessDb) (projectId : Int) (now : Instant) (modelId : Int) :
    (resolveProjectEntitlement modelId (db.planModelIds projectId now)
        (db.overridesOf projectId) now).allowed = true ↔
      (∀ r ∈ db.modelOverrides projectId now modelId, r.effect ≠ .block) ∧
        (modelId ∈ db.planModelIds projectId now ∨
          ∃ r ∈ db.modelOverrides projectId now modelId, r.effect = .grant) := by
  simp only [resolveProjectEntitlement, Bool.and_eq_true, Bool.or_eq_true, List.isEmpty_iff,
    List.map_eq_nil_iff, List.filter_eq_nil_iff, List.mem_filter, decide_eq_true_eq,
    List.contains_iff_mem, Bool.not_eq_true', List.isEmpty_eq_false_iff, ne_eq]
  refine and_congr ?_ (or_congr Iff.rfl ?_)
  · exact forall_congr' fun r => by rw [mem_modelOverrides]
  · simp only [mem_modelOverrides, not_forall, not_not, exists_prop]

/-! ## Agreement -/

section Agreement

variable (db : AccessDb) (projectId : Int) (now : Instant)

/-- An active override of the project about the model. -/
def ActiveOverride (modelId : Int) (o : ProjectEntitlementOverride) : Prop :=
  o ∈ db.overridesOf projectId ∧ o.publicModelId = modelId ∧ o.isActiveAt now = true

/-- No active grant has the last word: where a block of the model is active,
each active grant has an active block behind it. -/
def BlocksLast (modelId : Int) : Prop :=
  ∀ g b, ActiveOverride db projectId now modelId g → g.effect = .grant →
    ActiveOverride db projectId now modelId b → b.effect = .block →
      ∃ c, ActiveOverride db projectId now modelId c ∧ c.effect = .block ∧ g.id < c.id

/-- A model without an active override that a version lists is offered one of
its enabled routes by a version that lists it. -/
def ListedOffered (modelId : Int) : Prop :=
  (∀ o, ¬ ActiveOverride db projectId now modelId o) →
    modelId ∈ db.planModelIds projectId now → db.Offered projectId now modelId

/-- The resolver has the model exactly when the declared policy allows it. -/
def Agrees (m : Model) : Prop :=
  ((resolveEffectiveProjectAccess db projectId now).routesByModel m.modelId).isSome ↔
    (resolveProjectEntitlement m.id (db.planModelIds projectId now)
      (db.overridesOf projectId) now).allowed = true

end Agreement

section

variable {db : AccessDb} {projectId : Int} {now : Instant} {modelId : Int}
  {r : ProjectEntitlementOverride}

/-- Against the last active override: the blocks have the last word exactly
when it is a block or none of the rows is. -/
theorem blocksLast_iff (hr : (db.modelOverrides projectId now modelId).getLast? = some r) :
    BlocksLast db projectId now modelId ↔
      (r.effect = .grant → ∀ b ∈ db.modelOverrides projectId now modelId, b.effect ≠ .block) := by
  have hmem := List.mem_of_getLast? hr
  constructor
  · intro hlast hgrant b hb hblock
    obtain ⟨c, hc, -, hlt⟩ :=
      hlast r b (mem_modelOverrides.mp hmem) hgrant (mem_modelOverrides.mp hb) hblock
    have hle := id_le_getLast hr c (mem_modelOverrides.mpr hc)
    omega
  · intro hgrants g b hg hgrant hb hblock
    cases heffect : r.effect with
    | grant => exact absurd hblock (hgrants heffect b (mem_modelOverrides.mpr hb))
    | block =>
        refine ⟨r, mem_modelOverrides.mp hmem, heffect, ?_⟩
        have hle := id_le_getLast hr g (mem_modelOverrides.mpr hg)
        -- the ids are a key, and a grant is no block
        have hne : g.id ≠ r.id := by
          intro hid
          obtain rfl := db.overrides_id g (List.mem_filter.mp hg.1).1 r
            (List.mem_filter.mp (mem_modelOverrides.mp hmem).1).1 hid
          exact absurd (hgrant.symm.trans heffect) (by decide)
        omega

theorem listedOffered_of_override (hr : r ∈ db.modelOverrides projectId now modelId) :
    ListedOffered db projectId now modelId :=
  fun hnone => absurd (mem_modelOverrides.mp hr) (hnone r)

/-- A version that offers a model lists it. -/
theorem listed_of_offered (h : db.Offered projectId now modelId) :
    modelId ∈ db.planModelIds projectId now := by
  obtain ⟨v, hv, hlisted, -⟩ := h
  exact List.mem_flatMap.mpr ⟨v, hv, hlisted⟩

end

/-- When the two implementations agree on a model with an enabled row and an
enabled route. -/
theorem routes_agree_iff {db : AccessDb} {projectId : Int} {now : Instant} {m : Model}
    (hm : m ∈ db.models) (henabled : m.status = .enabled ∧ m.deletedAt = 0)
    (hroute : db.enabledRoutes m.id ≠ []) :
    Agrees db projectId now m ↔
      BlocksLast db projectId now m.id ∧ ListedOffered db projectId now m.id := by
  have hin := (db.mem_enabledModels).mpr ⟨hm, henabled⟩
  unfold Agrees
  rw [AccessDb.present_iff hin hroute, allowed_iff]
  cases hlast : (db.modelOverrides projectId now m.id).getLast? with
  | none =>
      -- no active override: listed against offered
      have hnil := List.getLast?_eq_none_iff.mp hlast
      have hnone : ∀ o, ¬ ActiveOverride db projectId now m.id o := by
        intro o ho
        have hmem := mem_modelOverrides.mpr ho
        rw [hnil] at hmem
        exact absurd hmem List.not_mem_nil
      have hblocks : BlocksLast db projectId now m.id := fun g _ hg => absurd hg (hnone g)
      simp only [hnil, List.not_mem_nil, false_and, exists_false, or_false, IsEmpty.forall_iff,
        implies_true, true_and]
      constructor
      · exact fun h => ⟨hblocks, fun _ => h.mpr⟩
      · exact fun h => ⟨listed_of_offered, h.2 hnone⟩
  | some r =>
      have hr := List.mem_of_getLast? hlast
      rw [blocksLast_iff hlast, and_iff_left (listedOffered_of_override hr)]
      constructor
      · exact fun h hgrant => (h.mp hgrant).1
      · intro hgrants
        constructor
        · exact fun hgrant => ⟨hgrants hgrant, .inr ⟨r, hr, hgrant⟩⟩
        · rintro ⟨hnoblock, -⟩
          cases heffect : r.effect with
          | grant => exact heffect
          | block => exact absurd heffect (hnoblock r hr)

/-! ## A concrete catalogue -/

/-- One model over two enabled routes, and a published plan version that
lists the model and selects the routes `selected`. -/
def oneModelDb (selected : List Int) (overrides : List ProjectEntitlementOverride)
    (overrides_id : ∀ a ∈ overrides, ∀ b ∈ overrides, a.id = b.id → a = b) : AccessDb where
  profiles := [⟨1, some 1, .active⟩]
  plans := [⟨1, .enabled⟩]
  planVersions := [⟨1, 1, 1, .published, none, none⟩]
  grants := []
  planItems := [⟨1, 1⟩]
  planRouteItems := selected.map fun routeId => ⟨1, routeId⟩
  routes := [⟨1, 1, 1, .enabled⟩, ⟨2, 1, 2, .enabled⟩]
  deployments := [⟨1, 1, "upstream-a", .enabled⟩, ⟨2, 2, "upstream-b", .enabled⟩]
  channels := [⟨1, .enabled, 0⟩, ⟨2, .enabled, 0⟩]
  overrides := overrides
  models := [⟨1, "model", .enabled, 0⟩]
  models_id := by simp
  models_by_model_id := by simp
  overrides_id := overrides_id

/-- An active override of the model, for all time. -/
def activeRow (id : Int) (effect : ProjectEntitlementEffect) : ProjectEntitlementOverride :=
  ⟨id, 1, 1, effect, .active, none, none⟩

/-- A block, a grant behind it and a block behind both: the model is denied by
both. -/
theorem agrees_block_grant_block :
    Agrees (oneModelDb [2] [activeRow 1 .block, activeRow 2 .grant, activeRow 3 .block]
      (by decide)) 1 0 ⟨1, "model", .enabled, 0⟩ := by
  refine (routes_agree_iff (List.mem_singleton_self _) ⟨rfl, rfl⟩ (by decide)).mpr ⟨?_, ?_⟩
  · intro g b hg hgrant _ _
    have hmem : activeRow 3 .block ∈ (oneModelDb [2] [activeRow 1 .block, activeRow 2 .grant,
        activeRow 3 .block] (by decide)).overridesOf 1 := by decide
    refine ⟨activeRow 3 .block, ⟨hmem, rfl, rfl⟩, rfl, ?_⟩
    have hrows : ∀ g ∈ [activeRow 1 .block, activeRow 2 .grant, activeRow 3 .block],
        g.effect = .grant → g.id < 3 := by decide
    exact hrows g (List.mem_filter.mp hg.1).1 hgrant
  · exact fun _ _ => ⟨1, by decide, by decide, by decide⟩

/-- A listed model whose enabled routes the version leaves out. -/
example : ¬ Agrees (oneModelDb [3] [] (by decide)) 1 0 ⟨1, "model", .enabled, 0⟩ := by
  unfold Agrees
  decide

/-- A grant behind a block adds the routes of the blocked model again. -/
theorem grant_after_block_admits :
    ¬ Agrees (oneModelDb [] [activeRow 1 .block, activeRow 2 .grant] (by decide)) 1 0
      ⟨1, "model", .enabled, 0⟩ := by
  unfold Agrees
  decide

end Conduit.Access
