import OData.Proofs.Options.Nested
import OData.Proofs.Service.Serving

/-!
# Requests without extraordinary errors

Options that a request was given are within the limits at every depth: those of the request itself,
and those of each expansion, of which also the text of the filter is measured.  The depth of an
expansion is counted again when it is carried out, and is then never more than it was before.

In a built model whose navigation properties all have constraints and lead to one set, no request
fails with an error of the configuration.  In any other one the entities to which such a navigation
property leads cannot be read: the error comes when they are asked for.
-/

set_option autoImplicit false

namespace OData

/-! ## Limits of options -/

/-- Whether options are within the limits, apart from their expansions. -/
structure QueryLimits.Admits (limits : QueryLimits) (o : QueryOptions) : Prop where
  filter : ∀ e ∈ o.filter, e.nodes ≤ limits.maxFilterNodes
  orderBy : o.orderBy.length ≤ limits.maxOrderByFields
  select : ∀ paths, o.select = some (.properties paths) → paths.length ≤ limits.maxSelectFields

namespace QueryLimits

variable {limits : QueryLimits} {depth : Nat} {o : QueryOptions}

theorem of_checkFilter {filter : Option Expr} (within : limits.checkFilter depth filter = .ok ()) :
    ∀ e ∈ filter, e.nodes ≤ limits.maxFilterNodes ∧
      (0 < depth → e.toText.length ≤ limits.maxFilterLength) := by
  rintro e ⟨⟩
  obtain ⟨⟨⟩, nodes, length⟩ := Result.bind_eq_ok.mp within
  refine ⟨of_decide_eq_true (require_eq_ok.mp nodes), fun below => ?_⟩
  rw [if_pos below] at length
  exact of_decide_eq_true (require_eq_ok.mp length)

/-- What is checked of options at a depth. -/
theorem of_check (within : limits.check depth o = .ok ()) :
    depth ≤ limits.maxExpandDepth ∧ limits.Admits o ∧
      (0 < depth → ∀ e ∈ o.filter, e.toText.length ≤ limits.maxFilterLength) := by
  obtain ⟨filter, orderBy, select, expand, top, skip, count, skipToken⟩ := o
  rw [check] at within
  obtain ⟨⟨⟩, nested, within⟩ := Result.bind_eq_ok.mp within
  obtain ⟨⟨⟩, measured, within⟩ := Result.bind_eq_ok.mp within
  obtain ⟨⟨⟩, ordered, within⟩ := Result.bind_eq_ok.mp within
  obtain ⟨⟨⟩, selected, -⟩ := Result.bind_eq_ok.mp within
  have filters := of_checkFilter measured
  have paths : ∀ paths, select = some (.properties paths) →
      paths.length ≤ limits.maxSelectFields := by
    rintro paths ⟨⟩
    exact of_decide_eq_true (require_eq_ok.mp selected)
  refine ⟨of_decide_eq_true (require_eq_ok.mp nested), ?_, ?_⟩
  · exact ⟨fun e found => (filters e found).1, of_decide_eq_true (require_eq_ok.mp ordered), paths⟩
  · exact fun below e found => (filters e found).2 below

/-- The check counts all levels of the expansions. -/
theorem add_expandDepth_le_of_check (within : limits.check depth o = .ok ()) :
    depth + o.expandDepth ≤ limits.maxExpandDepth := by
  induction o using QueryOptions.induction generalizing depth with
  | step o each =>
    have inside := checkList_of_check within
    have levels : ∀ items : List Expansion, (∀ item ∈ items, item ∈ o.expand) →
        depth + QueryOptions.depthOfList items ≤ limits.maxExpandDepth := by
      intro items among
      induction items with
      | nil => exact (of_check within).1
      | cons item rest ih =>
        have first := each item (among item List.mem_cons_self)
          (check_of_mem inside (among item List.mem_cons_self))
        have others := ih fun other member => among other (List.mem_cons_of_mem _ member)
        rw [QueryOptions.depthOfList]
        omega
    rw [QueryOptions.expandDepth_eq]
    exact levels o.expand fun _ => id

end QueryLimits

namespace QueryOptions

variable {limits : QueryLimits} {pairs : List (String × String)} {o : QueryOptions}

theorem check_of_ofPairs (read : ofPairs limits pairs = .ok o) : limits.check 0 o = .ok () := by
  obtain ⟨_, _, rest⟩ := Result.bind_eq_ok.mp read
  obtain ⟨⟨⟩, checked, result⟩ := Result.bind_eq_ok.mp rest
  cases result
  exact checked

/-- Options that a request was given are within the limits, and those of each expansion at any
depth are.  Under the same limits, no request with these options fails because they nest too
deeply. -/
theorem within_limits_of_ofPairs (read : ofPairs limits pairs = .ok o) :
    o.expandDepth ≤ limits.maxExpandDepth ∧ limits.Admits o ∧
    (∀ item, o.Expands item → limits.Admits item.2 ∧
      ∀ e ∈ item.2.filter, e.toText.length ≤ limits.maxFilterLength) ∧
    ∀ (ctx : Context) (t : Transaction) (store after : Store) (e : Error),
      ctx.config.limits = limits → t.options = o → t.depth = 0 →
      (Service.execute ctx t).runOn store = (.error e, after) → e.code ≠ "expand_too_deep" := by
  have checked := check_of_ofPairs read
  have deep := QueryLimits.add_expandDepth_le_of_check checked
  rw [Nat.zero_add] at deep
  refine ⟨deep, (QueryLimits.of_check checked).2.1, ?_, ?_⟩
  · intro item expands
    obtain ⟨depth, within⟩ := expands.exists_check (QueryLimits.checkList_of_check checked)
    obtain ⟨-, admits, texts⟩ := QueryLimits.of_check within
    exact ⟨admits, texts (Nat.succ_pos depth)⟩
  · intro ctx t store after e same options top failed
    have shallow : t.depth + t.options.expandDepth ≤ ctx.config.limits.maxExpandDepth := by
      rw [top, options, same, Nat.zero_add]
      exact deep
    have served : Action.Harmless ⟨true, false⟩ (Service.execute ctx t) :=
      Service.harmless_execute (.inl rfl) (.inr shallow)
    have other := Tolerance.not_isTooDeep_of_allows (served.allows_of_error failed) rfl
    rw [Error.isTooDeep, beq_eq_false_iff_ne] at other
    exact other

/-! Pets that are tame, and their toys. -/

def toys : Expansion := ("Toys", empty)

def tamePets : QueryOptions := { empty with expand := [("Pets", { empty with
  filter := some (.path ["tame"]), expand := [toys] })] }

theorem tamePets_within_limits :
    ofPairs .standard [("$expand", "Pets($filter=tame;$expand=Toys)")] = .ok tamePets ∧
      tamePets.Expands toys ∧ tamePets.expandDepth ≤ QueryLimits.standard.maxExpandDepth ∧
      QueryLimits.standard.Admits toys.2 ∧
      ∀ (ctx : Context) (t : Transaction) (store after : Store) (e : Error),
        ctx.config.limits = .standard → t.options = tamePets → t.depth = 0 →
        (Service.execute ctx t).runOn store = (.error e, after) → e.code ≠ "expand_too_deep" := by
  have text : tamePets.toPairs = [("$expand", "Pets($filter=tame;$expand=Toys)")] := by
    decide +kernel
  have read : ofPairs .standard tamePets.toPairs = .ok tamePets := by
    have fits : Fits Expr.Restored Expr.maxNesting tamePets := { fits_empty _ _ with }
    have inside : ExpandFits Expr.Restored 1 [toys] := by
      intro item member
      rw [List.mem_singleton.mp member]
      exact ⟨by decide, fits_empty _ _, expandFits_nil _ _⟩
    have pets : ExpandFits Expr.Restored 2 tamePets.expand := by
      intro item member
      rw [List.mem_singleton.mp member]
      have tame : ∀ e, some (Expr.path ["tame"]) = some e → e.Restored 1 := by
        rintro e ⟨⟩
        exact ⟨by decide +kernel, rfl, rfl, by decide +kernel, rfl⟩
      exact ⟨by decide, { fits_empty Expr.Restored 1 with filter := tame }, inside⟩
    have within : QueryLimits.standard.check 1 tamePets = .ok () := by rfl
    exact ofPairs_toPairs_eq_ok fits (pets.mono (by decide)) within
  have expands : tamePets.Expands toys := .inside List.mem_cons_self (.here List.mem_cons_self)
  obtain ⟨depth, -, nested, executed⟩ := within_limits_of_ofPairs read
  rw [← text]
  exact ⟨read, expands, depth, (nested toys expands).1, executed⟩

end QueryOptions

/-! ## Errors of the configuration -/

open OData.Action

namespace Service

variable {ctx : Context} {t : Transaction}

theorem isConfiguration_of_bindingTarget {model : Model} {set : EntitySetDef}
    {navigation : NavigationProperty} {e : Error}
    (unbound : model.bindingTarget set navigation = .error e) : e.isConfiguration = true := by
  rw [Model.bindingTarget] at unbound
  split at unbound
  · split at unbound
    · cases unbound
    · cases unbound
      rfl
  · split at unbound
    · cases unbound
    · cases unbound
      rfl

/-- A request that only reads names no target if its parameters do not. -/
theorem explicitTarget_of_get {set : EntitySet} (method : t.request.method = .get)
    (parameter : EntitySet.parameterReference? t.request = none) :
    set.explicitTarget ctx t.request none = .ok none := by
  have body : EntitySet.bodyReference? t.request = none := by
    rw [EntitySet.bodyReference?, if_pos method]
  rw [EntitySet.explicitTarget.eq_def, parameter, body]

/-- A plain query of related entities fails if nothing relates them. -/
theorem plan_of_unconstrained {set : EntitySet} {source : Source} (led : set.source = some source)
    (none : source.navigation.constraints = []) :
    ∃ e, set.plan ctx .empty = .error e ∧ e.isConfiguration = true := by
  have scope : ∃ e, source.scope set.entityType = .error e ∧ e.isConfiguration = true := by
    rw [Source.scope, none]
    exact ⟨_, rfl, rfl⟩
  obtain ⟨e, failed, kind⟩ := scope
  have checked : QueryPlan.checkExpansions ctx.model set.entityType [] = .ok () := by
    rw [QueryPlan.checkExpansions]
  have bound : ∃ plan, QueryPlan.ofOptions ctx.model set.entityType .empty = .ok plan := by
    rw [QueryPlan.ofOptions, QueryOptions.empty, checked]
    exact ⟨_, rfl⟩
  obtain ⟨plan, bound⟩ := bound
  refine ⟨e, ?_, kind⟩
  rw [EntitySet.plan, bound, led]
  simp only [failed]
  rfl

theorem runOn_getRequest_of_plan {place : Place} {source : Source} {e : Error} {store : Store}
    {path : ResourcePath} (noKey : place.key = none) (led : place.set.source = some source)
    (named : place.set.explicitTarget ctx t.request none = .ok none)
    (plan : place.set.plan ctx t.options = .error e) :
    (getRequest ctx t path place).runOn store = (.error e, store) := by
  rw [getRequest, noKey, led]
  simp only
  rw [EntitySet.resolve, named]
  simp only [lift_ok_bind]
  rw [EntitySet.resolveScoped, led]
  simp only
  split
  · rw [pure_bind]
    simp only
    rw [entityPage, pageResponse, Pager.firstPage, Pager.open?, plan]
    rfl
  · rw [EntitySet.firstEntity, plan]
    rfl

/-- A path through a navigation property that leads to no set fails there. -/
theorem runOn_walk_unbound {set : EntitySetDef} {navigation : NavigationProperty}
    {keyText name : String} {last : Option String} {key : Key} {record : Record} {store : Store}
    {e : Error} (intact : ctx.model.Intact) (member : set ∈ ctx.model.sets)
    (named : Key.parse set.entityType keyText = .ok key)
    (read : ((EntitySet.root set).readScoped key).runOn store = (.ok record, store))
    (declared : set.entityType.navigation? name = some navigation)
    (unbound : ctx.model.bindingTarget set navigation = .error e) :
    (walk ctx t [⟨set.name.text, some keyText⟩, ⟨name, last⟩]).runOn store = (.error e, store) := by
  have root : rootSet ctx set.name.text = .ok (EntitySet.root set) :=
    rootSet_eq_ok_iff.mpr ⟨set, intact.entitySet?_name member, rfl⟩
  have keyed : (keyOf ctx t (EntitySet.root set) (some keyText)).runOn store = (.ok key, store) :=
    congrArg (·, store) named
  have led : (EntitySet.root set).navigate ctx record name = .error e := by
    have type : (EntitySet.root set).entityType.navigation? name = some navigation := declared
    rw [EntitySet.navigate, type]
    exact congrArg (· >>= _) unbound
  have stepped : (step ctx t ⟨EntitySet.root set, some keyText, none⟩ ⟨name, last⟩).runOn store =
      (.error e, store) := by
    rw [step, runOn_bind_of_ok keyed, runOn_bind_of_ok read, led]
    rfl
  rw [walk, root, lift_ok_bind, walkFrom]
  exact runOn_bind_of_error stepped

/-- In a built model no request fails with an error of the configuration if every navigation
property of every set has constraints and leads to one set.  Of any other navigation property a
plain request for the entities that it leads to from a stored one fails so. -/
theorem execute_configuration_error {declaration : ModelDeclaration}
    (built : declaration.build = .ok ctx.model) :
    (ctx.model.Navigable → ∀ t store e after, (execute ctx t).runOn store = (.error e, after) →
      e.isConfiguration = false) ∧
    (∀ set ∈ ctx.model.sets, ∀ name navigation, set.entityType.navigation? name = some navigation →
      (navigation.constraints = [] ∨ ∃ e, ctx.model.bindingTarget set navigation = .error e) →
      ∀ (t : Transaction) (store : Store) keyText key record,
        t.request.method = .get → EntitySet.parameterReference? t.request = none →
        t.options = .empty →
        ResourcePath.parse (ctx.config.endpoint.resourcePath t.request.path) =
          .ok (.resource [⟨set.name.text, some keyText⟩, ⟨name, none⟩] none) →
        Key.parse set.entityType keyText = .ok key →
        (store.rows set.name.text).read key = some record →
        ∃ e, (execute ctx t).runOn store = (.error e, store) ∧ e.isConfiguration = true) := by
  have intact := ModelDeclaration.intact_of_build built
  constructor
  · intro navigable t store e after failed
    have served : Action.Harmless ⟨false, true⟩ (execute ctx t) :=
      harmless_execute (.inr ⟨intact, navigable⟩) (.inl rfl)
    exact Tolerance.not_isConfiguration_of_allows (served.allows_of_error failed) rfl
  · intro set member name navigation declared broken t store keyText key record method parameter
      plain parsed named row
    have read : ((EntitySet.root set).readScoped key).runOn store = (.ok record, store) :=
      (EntitySet.runOn_readScoped_root_ok_iff rfl).mpr ⟨intact.readable set member, row, rfl⟩
    cases bound : ctx.model.bindingTarget set navigation with
    | error e =>
      refine ⟨e, ?_, isConfiguration_of_bindingTarget bound⟩
      rw [execute, parsed, lift_ok_bind]
      exact runOn_bind_of_error (runOn_walk_unbound intact member named read declared bound)
    | ok target =>
      have unconstrained : navigation.constraints = [] := by
        rcases broken with lacking | ⟨e, unbound⟩
        · exact lacking
        · cases bound.symm.trans unbound
      have walked : (walk ctx t [⟨set.name.text, some keyText⟩, ⟨name, none⟩]).runOn store =
          (.ok ⟨⟨target, some ⟨set, navigation, record⟩⟩, none,
            some ⟨EntitySet.root set, key, name⟩⟩, store) :=
        walk_pair_ok_iff.mpr ⟨⟨set, navigation, record⟩, key, target,
          intact.entitySet?_name member, named, read, declared, bound, rfl⟩
      obtain ⟨e, failed, kind⟩ : ∃ e, EntitySet.plan ctx ⟨target, some ⟨set, navigation, record⟩⟩
          .empty = .error e ∧ e.isConfiguration = true := plan_of_unconstrained rfl unconstrained
      refine ⟨e, ?_, kind⟩
      rw [execute, parsed, lift_ok_bind]
      simp only
      rw [runOn_bind_of_ok walked, entityRequest, method]
      exact runOn_getRequest_of_plan rfl rfl (explicitTarget_of_get method parameter)
        (by rw [plain]; exact failed)

/-! Members with a sponsor, of whom no constraint says who it is. -/

def sponsorOfMember : NavigationProperty :=
  { name := ⟨"Sponsor", Eq.refl true⟩, target := ⟨"Member", Eq.refl true⟩, collection := false,
    expandable := true, nullable := true, partner := none, constraints := [] }

def memberType : EntityType :=
  ⟨⟨"Member", Eq.refl true⟩, [tagNumber], [tagNumber.name], [sponsorOfMember]⟩

def memberDeclaration : ModelDeclaration :=
  { space := "Club", alias? := none, references := [], types := [memberType],
    sets := [⟨"Members", "Member", [], .table .all, none, none⟩] }

def membersSet : EntitySetDef :=
  ⟨⟨"Members", Eq.refl true⟩, memberType, [], .table .all, .all, none⟩

def memberModel : Model :=
  { space := "Club", alias? := none, references := [], types := [memberType], sets := [membersSet] }

def memberContext : Context := ⟨memberModel, Config.standard, none, .standard⟩

def firstMember : Record := [(tagNumber.name, .int 1)]

def memberStore : Store := ⟨[("Members", [firstMember])], []⟩

/-- The request for the sponsor of the first member. -/
def getSponsor : Transaction :=
  { request := ⟨.get, "/Members(1)/Sponsor", [], none⟩,
    options := .empty,
    depth := 0,
    drawn := .nil }

theorem parse_getSponsor :
    ResourcePath.parse (memberContext.config.endpoint.resourcePath getSponsor.request.path) =
      .ok (.resource [⟨"Members", some "1"⟩, ⟨"Sponsor", none⟩] none) := by
  decide +kernel

/-- The model is built, and asking for the sponsor shows that it should not be. -/
theorem getSponsor_configuration_error :
    memberDeclaration.build = .ok memberModel ∧
      ∃ e, (execute memberContext getSponsor).runOn memberStore = (.error e, memberStore) ∧
        e.isConfiguration = true := by
  have built : memberDeclaration.build = .ok memberContext.model := rfl
  have named : Key.parse memberType "1" = .ok ⟨[(tagNumber.name, .int 1)]⟩ := by rfl
  have row : (memberStore.rows "Members").read ⟨[(tagNumber.name, .int 1)]⟩ = some firstMember := by
    rfl
  exact ⟨built, (execute_configuration_error built).2 membersSet List.mem_cons_self "Sponsor"
    sponsorOfMember rfl (.inl rfl) getSponsor memberStore "1" _ firstMember rfl rfl rfl
    parse_getSponsor named row⟩

end Service

end OData
