import Mathlib.Data.List.Infix
import OData.Proofs.Service.Conformity

/-!
# Requests that keep rows conforming

Updating, deleting and unlinking entities maintain that all stored rows conform to their types,
whether they succeed or not.  A link maintains it if and only if the properties of the foreign key
accept what it assigns.  So the rows conform along a sequence of requests if and only if each link
on the way assigns accepted values, and always if the model joins no property with one that accepts
less.
-/

set_option autoImplicit false

namespace OData

open OData.Action

namespace EntitySet

variable {ctx : Context} {set : EntitySet} {key : Key}

/-- A constraint joins properties of both ends, of one type or two integers, and the one that keeps
the value accepts what the other does. -/
theorem exists_joined {definition target : EntitySetDef} {navigation : NavigationProperty}
    {c : ReferentialConstraint} (intact : ctx.model.Intact) (covered : ctx.model.Covered)
    (member : definition ∈ ctx.model.sets)
    (found : definition.entityType.navigation? navigation.name.text = some navigation)
    (bound : ctx.model.bindingTarget definition navigation = .ok target)
    (among : c ∈ navigation.constraints) :
    ∃ p q, definition.entityType.property? c.property.text = some p ∧
      target.entityType.property? c.referenced.text = some q ∧
      (p.type = q.type ∨ p.type.isIntegral = true ∧ q.type.isIntegral = true) ∧
      if navigation.keyOnSource target.entityType then p.Covers q else q.Covers p := by
  obtain ⟨p, q, left, right, types⟩ :=
    ModelDeclaration.exists_of_joins (intact.joins member found bound c among)
  exact ⟨p, q, left, right, types, covered _ member _ _ found bound c among p q left right⟩

/-- The values that a link assigns stand in a row of the other set; they are accepted if the
property that keeps them accepts all that stands there. -/
theorem accepted_of_covered {navigation : String} {store middle : Store} {r : Relationship}
    {record : Record} (intact : ctx.model.Intact)
    (declared : ∀ set ∈ ctx.model.sets, set.entityType.Declared)
    (covered : ctx.model.Covered) (conforms : ctx.model.Conforms store)
    (member : set.definition ∈ ctx.model.sets)
    (opened : (Relationship.open? ctx set key navigation).runOn store = (.ok r, middle))
    (target : record ∈ store.rows r.target.name.text) : r.Accepted record := by
  obtain ⟨-, -, source, -, found, bound, read⟩ := Relationship.open?_eq_ok opened
  have targetMember : r.target.definition ∈ ctx.model.sets := Model.mem_sets_of_bindingTarget bound
  have own := conforms _ member _ (List.mem_of_find?_eq_some read)
  have other := conforms _ targetMember _ target
  have name : r.source.navigation.name.text = navigation := by simpa using List.find?_some found
  rw [← name] at found
  intro property listed named
  obtain ⟨v, assigned, value⟩ := Relationship.exists_value_linkedRow r record named
  rw [value]
  rw [Relationship.foreignKey] at assigned
  rw [Relationship.keeperSet] at listed
  -- The end that keeps the key takes the value that stands at the other end.
  split at assigned
  next side =>
    rw [if_pos side, source] at listed
    obtain ⟨c, among, same⟩ := List.mem_map.mp assigned
    obtain ⟨p, q, left, right, types, covers⟩ :=
      exists_joined intact covered member found bound among
    have onSource : r.source.navigation.keyOnSource r.target.definition.entityType = true := side
    rw [if_pos onSource] at covers
    obtain ⟨names, rfl⟩ := Prod.mk.inj same
    rw [(declared _ member).eq_of_name listed (List.mem_of_find?_eq_some left)
      (names.symm.trans (EntityType.name_of_property? left).symm)]
    exact Property.accepts_value covers types other right
  next side =>
    rw [if_neg side] at listed
    obtain ⟨c, among, same⟩ := List.mem_map.mp assigned
    obtain ⟨p, q, left, right, types, covers⟩ :=
      exists_joined intact covered member found bound among
    have onTarget : ¬ r.source.navigation.keyOnSource r.target.definition.entityType = true := side
    rw [if_neg onTarget] at covers
    obtain ⟨names, rfl⟩ := Prod.mk.inj same
    rw [(declared _ targetMember).eq_of_name listed (List.mem_of_find?_eq_some right)
      (names.symm.trans (EntityType.name_of_property? right).symm)]
    exact Property.accepts_value covers (types.imp Eq.symm And.symm) own left

end EntitySet

namespace Service

variable {ctx : Context} {t : Transaction} {store after : Store}

/-! ## One request -/

/-- What a body has and what clears an optional foreign key is accepted by the properties. -/
theorem relatesWrites_conforms (intact : ctx.model.Intact)
    (declared : ∀ set ∈ ctx.model.sets, set.entityType.Declared)
    (post : t.request.method = .post → LinksEntities ctx t) (other : ¬ LinksEntities ctx t) :
    RelatesWrites ctx t (Keeps ctx.model.Conforms) := by
  have tables : OfTables (Keeps ctx.model.Conforms) :=
    ofTables_keeps fun _ _ same conforms => conforms.of_tables_eq same
  refine ⟨tables, fun method => absurd (post method) other, ?updates, ?deletes,
    fun link => absurd link other, ?unlinks⟩
  case updates =>
    intro set key member
    refine EntitySet.relates_updateRecord tables fun _ given changes read checked => ?_
    refine relates_write tables fun store stored table updated conforms => ?_
    refine conforms.update intact member ?_ updated
    intro property listed v changed
    exact EntityType.admits_readBody (declared _ member) read property listed v
      (EntityType.mem_of_withoutKey checked _ changed)
  case deletes =>
    intro set key member
    refine EntitySet.relates_delete tables fun _ => ?_
    exact relates_write tables fun store stored table deleted conforms =>
      conforms.delete intact member deleted
  case unlinks =>
    intro r record keeper optional
    refine Relationship.relates_assign tables fun _ key => ?_
    exact relates_write tables fun store stored table updated conforms =>
      conforms.update intact keeper
        (Relationship.admits_cleared (declared _ keeper) optional) updated

/-- If a request succeeds in linking two entities, whether the assigned values are accepted. -/
def LinkAccepted (ctx : Context) (t : Transaction) (store : Store) : Prop :=
  ∀ segments r record response after,
    ResourcePath.parse (ctx.config.endpoint.resourcePath t.request.path) =
      .ok (.resource segments (some .ref)) →
    isLink t (some .ref) → Links ctx t segments store r record →
    (execute ctx t).runOn store = (.ok response, after) → r.Accepted record

/-- What a link does is determined. -/
theorem Links.unique {segments : List Segment} {r s : Relationship} {record other : Record}
    (first : Links ctx t segments store r record) (second : Links ctx t segments store s other) :
    s = r ∧ other = record := by
  obtain ⟨place, parent, middle, walked, reached, key, origin, opened, explicit, read⟩ := first
  obtain ⟨place', parent', middle', walked', reached', key', origin', opened', explicit', read'⟩ :=
    second
  cases walked.symm.trans walked'
  cases reached.symm.trans reached'
  cases opened.symm.trans opened'
  cases explicit.symm.trans explicit'
  exact ⟨rfl, Option.some.inj (read'.symm.trans read)⟩

/-- A request that creates no entity keeps the rows conforming exactly if, as a link, it assigns
accepted values. -/
theorem conforms_execute_iff (intact : ctx.model.Intact)
    (declared : ∀ set ∈ ctx.model.sets, set.entityType.Declared)
    (conforms : ctx.model.Conforms store)
    (post : t.request.method = .post → LinksEntities ctx t) :
    ctx.model.Conforms ((execute ctx t).runOn store).2 ↔ LinkAccepted ctx t store := by
  by_cases link : LinksEntities ctx t
  · obtain ⟨segments, parsed, -, method⟩ := link
    rcases run : (execute ctx t).runOn store with ⟨e | response, last⟩
    · have notStores : ∀ segments, ResourcePath.parse (ctx.config.endpoint.resourcePath
          t.request.path) = .ok (.resource segments none) → stores t.request.method = false := by
        intro others entity
        cases parsed.symm.trans entity
      refine iff_of_true (conforms.of_tables_eq (atomic_execute notStores store e last run)) ?_
      intro _ _ _ _ _ _ _ _ success
      cases run.symm.trans success
    · have success := run
      rw [execute, parsed, lift_ok_bind] at run
      obtain ⟨place, middle, walked, run⟩ := runOn_bind_ok_iff.mp run
      obtain ⟨parent, reached, linked⟩ := link_of_referenceRequest method run
      have member := parent_mem_sets_of_walk walked reached
      have before := conforms.of_tables_eq ((reads_walk ctx t segments).tables_eq walked)
      obtain ⟨r, key, origin, record, opened, explicit, read, assigned⟩ :=
        EntitySet.link_eq_ok linked
      have links : Links ctx t segments store r record :=
        ⟨place, parent, middle, walked, reached, key, origin, opened, explicit, read⟩
      rw [Relationship.conforms_assign_iff intact (EntitySet.keeperSet_mem_of_open? member opened)
        before assigned]
      constructor
      · intro accepted others s other _ _ parsed' _ links' _
        cases parsed.symm.trans parsed'
        obtain ⟨rfl, rfl⟩ := links.unique links'
        exact accepted
      · exact fun accepted => accepted segments r record response last parsed ⟨rfl, method⟩ links
          success
  · refine iff_of_true
      ((relatesWrites_conforms intact declared post link).relates_execute store conforms) ?_
    intro segments _ _ _ _ parsed method
    exact absurd ⟨segments, parsed, method⟩ link

theorem linkAccepted_of_covered (intact : ctx.model.Intact)
    (declared : ∀ set ∈ ctx.model.sets, set.entityType.Declared)
    (covered : ctx.model.Covered) (conforms : ctx.model.Conforms store) :
    LinkAccepted ctx t store := by
  rintro segments r record _ _ - - ⟨place, parent, middle, walked, reached, named⟩ -
  obtain ⟨key, origin, opened, -, read⟩ := named
  have member := parent_mem_sets_of_walk walked reached
  have before := conforms.of_tables_eq ((reads_walk ctx t segments).tables_eq walked)
  exact EntitySet.accepted_of_covered intact declared covered before member opened
    (List.mem_of_find?_eq_some read)

/-! ## Sequences of requests -/

/-- Rows that conform to their types do so all along a sequence of requests that create no entities
if and only if each link on the way assigns accepted values.  They always do if every property that
keeps a foreign key accepts what it refers to. -/
theorem conforms_afterAll {declaration : ModelDeclaration}
    (declared : ∀ ty ∈ declaration.types, ty.Declared)
    (built : declaration.build = .ok ctx.model) {requests : List Transaction}
    (conforms : ctx.model.Conforms store)
    (post : ∀ t ∈ requests, t.request.method = .post → LinksEntities ctx t) :
    ((∀ done, done <+: requests → ctx.model.Conforms (afterAll ctx done store)) ↔
        ∀ done t, done ++ [t] <+: requests → LinkAccepted ctx t (afterAll ctx done store)) ∧
      (ctx.model.Covered →
        ∀ done, done <+: requests → ctx.model.Conforms (afterAll ctx done store)) := by
  have intact := ModelDeclaration.intact_of_build built
  have declared : ∀ set ∈ ctx.model.sets, set.entityType.Declared := fun set member =>
    declared _ (ModelDeclaration.entityType_mem_of_build built set member)
  induction requests generalizing store with
  | nil =>
    have stays : ∀ done, done <+: [] → ctx.model.Conforms (afterAll ctx done store) := by
      intro done begins
      cases List.prefix_nil.mp begins
      exact conforms
    refine ⟨iff_of_true stays fun done t begins => ?_, fun _ => stays⟩
    exact absurd (List.prefix_nil.mp begins) (by simp)
  | cons t rest ih =>
    have first := conforms_execute_iff intact declared conforms (post t List.mem_cons_self)
    have later (conforms : ctx.model.Conforms ((execute ctx t).runOn store).2) :=
      ih conforms fun other among => post other (List.mem_cons_of_mem _ among)
    constructor
    · constructor
      · intro each done next begins
        have here := first.mp (each [t] ⟨rest, rfl⟩)
        cases done with
        | nil =>
          obtain ⟨rfl, -⟩ := List.cons_prefix_cons.mp begins
          exact here
        | cons head done =>
          obtain ⟨rfl, within⟩ := List.cons_prefix_cons.mp begins
          refine (later (first.mpr here)).1.mp (fun done begins => ?_) done next within
          exact each (head :: done) (List.cons_prefix_cons.mpr ⟨rfl, begins⟩)
      · intro each done begins
        have here := first.mpr (each [] t (List.cons_prefix_cons.mpr ⟨rfl, List.nil_prefix⟩))
        cases done with
        | nil => exact conforms
        | cons head done =>
          obtain ⟨rfl, within⟩ := List.cons_prefix_cons.mp begins
          refine (later here).1.mpr (fun done next begins => ?_) done within
          exact each (head :: done) next (List.cons_prefix_cons.mpr ⟨rfl, begins⟩)
    · intro covered done begins
      cases done with
      | nil => exact conforms
      | cons head done =>
        obtain ⟨rfl, within⟩ := List.cons_prefix_cons.mp begins
        have here := first.mpr (linkAccepted_of_covered intact declared covered conforms)
        exact (later here).2 covered done within

/-! Accounts with long numbers, and entries that keep them as integers of 32 bits. -/

def accountNumber : Property := ⟨⟨"serial", by decide⟩, .int64, false⟩

def entryNumber : Property := ⟨⟨"serial", by decide⟩, .int64, false⟩

def entryAccount : Property := ⟨⟨"account", by decide⟩, .int32, true⟩

def entriesOfAccount : NavigationProperty :=
  { name := ⟨"Entries", by decide⟩, target := ⟨"Entry", by decide⟩, collection := true,
    expandable := true, nullable := true, partner := none,
    constraints := [⟨accountNumber.name, entryAccount.name⟩] }

def account : EntityType :=
  ⟨⟨"Account", by decide⟩, [accountNumber], [accountNumber.name], [entriesOfAccount]⟩

def ledgerEntry : EntityType :=
  ⟨⟨"Entry", by decide⟩, [entryNumber, entryAccount], [entryNumber.name], []⟩

theorem declared_account : account.Declared := by
  have number : (EntityType.empty account.name).addProperty accountNumber =
      .ok ⟨account.name, [accountNumber], [], []⟩ := rfl
  have navigation : EntityType.addNavigation
      ⟨account.name, [accountNumber], [accountNumber.name], []⟩ entriesOfAccount =
        .ok account := rfl
  exact .navigation (.key [accountNumber.name] (.property (.empty account.name) number)) navigation

theorem declared_ledgerEntry : ledgerEntry.Declared := by
  have number : (EntityType.empty ledgerEntry.name).addProperty entryNumber =
      .ok ⟨ledgerEntry.name, [entryNumber], [], []⟩ := rfl
  have kept : EntityType.addProperty ⟨ledgerEntry.name, [entryNumber], [], []⟩ entryAccount =
      .ok ⟨ledgerEntry.name, [entryNumber, entryAccount], [], []⟩ := rfl
  exact .key [entryNumber.name] (.property (.property (.empty ledgerEntry.name) number) kept)

def ledgerDeclaration : ModelDeclaration :=
  { space := "Bank", alias? := none, references := [], types := [account, ledgerEntry],
    sets := [⟨"Accounts", "Account", [], .table .all, none, none⟩,
      ⟨"Entries", "Entry", [], .table .all, none, none⟩] }

def ledgerModel : Model :=
  { space := "Bank", alias? := none, references := [], types := [account, ledgerEntry],
    sets := [⟨⟨"Accounts", by decide⟩, account, [], .table .all, .all, none⟩,
      ⟨⟨"Entries", by decide⟩, ledgerEntry, [], .table .all, .all, none⟩] }

def ledgerContext : Context := ⟨ledgerModel, Config.standard, none, .standard⟩

def entryRow (account : Value) : Record :=
  [(entryNumber.name, .int 1), (entryAccount.name, account)]

def ledger (account : Value) : Store :=
  ⟨[("Accounts", [[(accountNumber.name, .int 5000000000)]]), ("Entries", [entryRow account])], []⟩

/-- The request that books the entry on the account. -/
def postEntry : Transaction :=
  { request := ⟨.post, "/Accounts(5000000000)/Entries(1)/$ref", [], none⟩,
    options := QueryOptions.empty, depth := 0, drawn := .nil }

theorem parse_postEntry :
    ResourcePath.parse (ledgerContext.config.endpoint.resourcePath postEntry.request.path) =
      .ok (.resource [⟨"Accounts", some "5000000000"⟩, ⟨"Entries", some "1"⟩] (some .ref)) := by
  decide +kernel

theorem execute_postEntry : (execute ledgerContext postEntry).runOn (ledger .null) =
    (.ok Response.noContent, ledger (.int 5000000000)) := by
  rw [execute, parse_postEntry, lift_ok_bind]
  rfl

theorem conforms_ledger : ledgerModel.Conforms (ledger .null) := by
  intro set member row among property listed
  rcases List.mem_cons.mp member with rfl | later
  · cases List.mem_singleton.mp among
    cases List.mem_singleton.mp listed
    exact ⟨.int 5000000000, rfl, rfl⟩
  · cases List.mem_singleton.mp later
    cases List.mem_singleton.mp among
    rcases List.mem_cons.mp listed with rfl | last
    · exact ⟨.int 1, rfl, rfl⟩
    · cases List.mem_singleton.mp last
      exact ⟨.null, rfl, rfl⟩

/-- The link answers without an error, and the entry keeps a number that is none of its type. -/
theorem not_conforms_postEntry :
    ¬ ledgerModel.Conforms (afterAll ledgerContext [postEntry] (ledger .null)) ∧
      ¬ LinkAccepted ledgerContext postEntry (ledger .null) := by
  have declared : ∀ ty ∈ ledgerDeclaration.types, ty.Declared := by
    intro ty member
    rcases List.mem_cons.mp member with rfl | later
    · exact declared_account
    · cases List.mem_singleton.mp later
      exact declared_ledgerEntry
  have built : ledgerDeclaration.build = .ok ledgerContext.model := rfl
  have links : ∀ t ∈ [postEntry], t.request.method = .post → LinksEntities ledgerContext t := by
    intro t member _
    cases List.mem_singleton.mp member
    exact ⟨_, parse_postEntry, rfl, .inl rfl⟩
  have after : afterAll ledgerContext [postEntry] (ledger .null) = ledger (.int 5000000000) :=
    congrArg Prod.snd execute_postEntry
  have broken : ¬ ledgerModel.Conforms (afterAll ledgerContext [postEntry] (ledger .null)) := by
    rw [after]
    intro conforms
    obtain ⟨v, found, accepted⟩ := conforms ⟨⟨"Entries", by decide⟩, ledgerEntry, [], .table .all,
      .all, none⟩ (by simp [ledgerModel]) (entryRow (.int 5000000000)) List.mem_cons_self
      entryAccount (by simp [ledgerEntry])
    cases found
    exact absurd accepted (by decide)
  obtain ⟨iff, -⟩ := conforms_afterAll declared built conforms_ledger links
  refine ⟨broken, fun accepted => broken (iff.mpr ?_ [postEntry] List.prefix_rfl)⟩
  intro done t begins
  cases done with
  | nil =>
    obtain ⟨rfl, -⟩ := List.cons_prefix_cons.mp begins
    exact accepted
  | cons head rest =>
    obtain ⟨-, within⟩ := List.cons_prefix_cons.mp begins
    exact absurd (List.prefix_nil.mp within) (by simp)

end Service

end OData
