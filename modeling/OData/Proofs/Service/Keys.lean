import OData.Proofs.Service.Atomicity
import OData.Proofs.Service.Linking

/-!
# Keys of stored entities

Updating an entity and clearing a foreign key leave the keys of all rows as they are: the one never
assigns a key property, and the other assigns only what may be null.  A link assigns whatever the
constraints name.  It leaves the keys exactly if the row that keeps the foreign key has the same key
with it as without it.
-/

set_option autoImplicit false

namespace OData

open OData.Action

namespace Table

/-- The values of the key of each row. -/
def keys (ty : EntityType) (table : Table) : List (List Value) :=
  table.map fun row => ty.key.map row.value

variable {ty : EntityType} {key : Key} {name : String} {values : List (Identifier × Value)}
  {table after : Table} {stored : Record}

theorem keys_replace_iff {before rest : Table} {row changed : Record} :
    keys ty (before ++ changed :: rest) = keys ty (before ++ row :: rest) ↔
      ∀ name ∈ ty.key, changed.value name = row.value name := by
  simp only [keys, List.map_append, List.map_cons, List.append_cancel_left_eq, List.cons.injEq,
    and_true, List.map_inj_left]

/-- Rows keep their keys if other properties change. -/
theorem keys_update (updated : update name key values table = .ok (stored, after))
    (outside : ∀ name ∈ ty.key, name ∉ values.map Prod.fst) : keys ty after = keys ty table := by
  obtain ⟨before, row, rest, rfl, -, -, -, -, rfl⟩ := update_eq_ok updated
  exact keys_replace_iff.mpr fun name member =>
    Record.value_insertAll_of_not_mem (outside name member)

end Table

namespace Model

/-- Whether the rows of all sets have the same keys in the same order. -/
def KeepsKeys (model : Model) (store after : Store) : Prop :=
  ∀ set ∈ model.sets, Table.keys set.entityType (after.rows set.name.text) =
    Table.keys set.entityType (store.rows set.name.text)

variable {model : Model} {store middle after : Store}

theorem keepsKeys_of_tables_eq (same : after.tables = store.tables) :
    model.KeepsKeys store after := by
  intro set _
  rw [Store.rows_congr same]

theorem KeepsKeys.trans (first : model.KeepsKeys store middle)
    (second : model.KeepsKeys middle after) : model.KeepsKeys store after :=
  fun set member => (second set member).trans (first set member)

/-- What holds of the rows of all sets holds with a table in place of that of one set if it does of
this table. -/
theorem Intact.forall_put {Q : EntitySetDef → Table → Prop} {set : EntitySetDef} {table : Table}
    (intact : model.Intact) (member : set ∈ model.sets)
    (old : ∀ other ∈ model.sets, Q other (store.rows other.name.text)) (new : Q set table) :
    ∀ other ∈ model.sets, Q other ((store.put set.name.text table).rows other.name.text) := by
  intro other among
  by_cases equal : other.name = set.name
  · cases intact.eq_of_name among member equal
    rw [Store.rows_put_self]
    exact new
  · rw [Store.rows_put_of_ne _ _ fun text => equal (EntityType.Identifier.eq_of_text text)]
    exact old other among

/-- A table in place of another one keeps the keys if it has the same. -/
theorem keepsKeys_put {set : EntitySetDef} {table : Table} (intact : model.Intact)
    (member : set ∈ model.sets)
    (same : Table.keys set.entityType table =
      Table.keys set.entityType (store.rows set.name.text)) :
    model.KeepsKeys store (store.put set.name.text table) :=
  intact.forall_put (Q := fun other rows => Table.keys other.entityType rows =
    Table.keys other.entityType (store.rows other.name.text)) member (fun _ _ => rfl) same

end Model

namespace Relationship

variable {r : Relationship} {record : Record} {store after : Store} {model : Model}

/-- A link keeps the keys exactly if the row that keeps the foreign key keeps its own. -/
theorem Assigned.keepsKeys_iff (intact : model.Intact) (member : r.keeperSet ∈ model.sets)
    (assigned : r.Assigned record store after) :
    model.KeepsKeys store after ↔ ∀ name ∈ r.keeperSet.entityType.key,
      (r.linkedRow record).value name = (r.keeperRow record).value name := by
  obtain ⟨before, rest, -, split, changed⟩ := assigned.row
  rw [← Table.keys_replace_iff, ← split, ← changed]
  constructor
  · exact fun keeps => keeps _ member
  · intro same other among
    by_cases equal : other.name = r.keeperSet.name
    · cases intact.eq_of_name among member equal
      exact same
    · rw [assigned.tables _ fun text => equal (EntityType.Identifier.eq_of_text text)]

theorem Assigned.of_tables_eq {middle : Store} (assigned : r.Assigned record middle after)
    (same : middle.tables = store.tables) : r.Assigned record store after := by
  obtain ⟨row, tables, properties⟩ := assigned
  rw [Store.rows_congr same] at row
  exact ⟨row, fun name other => (tables name other).trans (Store.rows_congr same name), properties⟩

theorem nullable_of_isNullable {ty : EntityType} {name : Identifier}
    (nullable : isNullable ty name = true) : ty.Nullable name := by
  rw [isNullable] at nullable
  split at nullable
  next property found => exact ⟨property, found, nullable⟩
  next => cases nullable

/-- A foreign key that may be cleared has no property of the key. -/
theorem not_mem_of_isOptional (declared : r.keeperSet.entityType.Declared)
    (optional : r.isOptional = true) :
    ∀ name ∈ r.keeperSet.entityType.key, name ∉ (r.foreignKey record true).map Prod.fst := by
  intro name member assigned
  refine declared.not_nullable_of_key name member (nullable_of_isNullable ?_)
  rw [map_fst_foreignKey] at assigned
  exact isNullable_of_isOptional optional name assigned

/-- Assigning no property of the key keeps the keys. -/
theorem keepsKeys_assign {clear : Bool} (intact : model.Intact) (member : r.keeperSet ∈ model.sets)
    (outside : ∀ name ∈ r.keeperSet.entityType.key,
      name ∉ (r.foreignKey record clear).map Prod.fst)
    (run : (r.assign record clear).runOn store = (.ok (), after)) :
    model.KeepsKeys store after := by
  obtain ⟨⟨keeper, key⟩, kept, run⟩ := runOn_lift_bind_ok_iff.mp run
  obtain ⟨⟨⟩, _, run⟩ := runOn_lift_bind_ok_iff.mp run
  obtain ⟨stored, last, written, run⟩ := runOn_bind_ok_iff.mp run
  cases run
  obtain ⟨table, updated, rfl⟩ := EntitySetDef.runOn_write_ok _ written
  cases keeper_eq_ok kept
  exact Model.keepsKeys_put intact member (Table.keys_update updated outside)

end Relationship

namespace EntitySet

/-- The relationship of an entity through a navigation property, and the record that a request names
as its target. -/
def Named (ctx : Context) (request : Request) (set : EntitySet) (key : Key) (navigation : String)
    (inlineKey : Option String) (store : Store) (r : Relationship) (record : Record) : Prop :=
  ∃ targetKey origin,
    (Relationship.open? ctx set key navigation).runOn store = (.ok r, store) ∧
      r.target.explicitTarget ctx request inlineKey = .ok (some (targetKey, origin)) ∧
      (store.rows r.target.name.text).read targetKey = some record

variable {ctx : Context} {set : EntitySet} {key : Key} {navigation : String}
  {inlineKey : Option String} {request : Request} {store after : Store}

theorem keeperSet_mem_of_open? {r : Relationship} (member : set.definition ∈ ctx.model.sets)
    (opened : (Relationship.open? ctx set key navigation).runOn store = (.ok r, after)) :
    r.keeperSet ∈ ctx.model.sets := by
  obtain ⟨-, -, source, -, -, bound, -⟩ := Relationship.open?_eq_ok opened
  rw [Relationship.keeperSet, source]
  split
  · exact member
  · exact Model.mem_sets_of_bindingTarget bound

/-- Unlinking clears only what may be null, which no property of a key may be. -/
theorem keepsKeys_unlink {options : QueryOptions} (intact : ctx.model.Intact)
    (declared : ∀ set ∈ ctx.model.sets, set.entityType.Declared)
    (member : set.definition ∈ ctx.model.sets)
    (run : (set.unlink ctx request options key navigation inlineKey).runOn store =
      (.ok (), after)) : ctx.model.KeepsKeys store after := by
  obtain ⟨r, middle, opened, clears⟩ := runOn_bind_ok_iff.mp run
  have keeper := keeperSet_mem_of_open? member opened
  obtain ⟨rfl, -⟩ := Relationship.open?_eq_ok opened
  obtain ⟨found, last, named, run⟩ := runOn_bind_ok_iff.mp clears
  have same := (reads_unlinkTarget ctx request inlineKey options r).tables_eq named
  apply (Model.keepsKeys_of_tables_eq same).trans
  cases found with
  | none =>
    simp only at run
    split at run
    · cases run
      exact Model.keepsKeys_of_tables_eq rfl
    · cases run
  | some record =>
    simp only at run
    split at run
    · cases run
      exact Model.keepsKeys_of_tables_eq rfl
    · cases run
    · cases run
    next optional =>
      exact Relationship.keepsKeys_assign intact keeper
        (Relationship.not_mem_of_isOptional (declared _ keeper) optional) run

/-- A link that succeeds assigns the foreign key to the target that the request names. -/
theorem assigned_of_link
    (distinct : ∀ definition ∈ ctx.model.sets,
      Table.HasDistinctKeys definition.entityType (store.rows definition.name.text))
    (member : set.definition ∈ ctx.model.sets)
    (run : (set.link ctx request key navigation inlineKey).runOn store = (.ok (), after)) :
    ∃ r record, Named ctx request set key navigation inlineKey store r record ∧
      r.keeperSet ∈ ctx.model.sets ∧ r.Assigned record store after := by
  obtain ⟨r, targetKey, origin, record, opened, explicit, target, run⟩ := link_eq_ok run
  have keeper := keeperSet_mem_of_open? member opened
  obtain ⟨-, sourceKey, sourceSet, -, -, bound, source⟩ := Relationship.open?_eq_ok opened
  have assigned : r.Assigned record store after :=
    Relationship.assigned_of_assign (by rw [sourceSet, sourceKey]; exact source) target
      (distinct _ (Model.mem_sets_of_bindingTarget bound)) run
  exact ⟨r, record, ⟨targetKey, origin, opened, explicit, target⟩, keeper, assigned⟩

theorem keepsKeys_updateRecord {body : Option Json} {record : Record} (intact : ctx.model.Intact)
    (member : set.definition ∈ ctx.model.sets) (names : key.names = set.entityType.key)
    (run : (set.updateRecord body key).runOn store = (.ok record, after)) :
    ctx.model.KeepsKeys store after := by
  obtain ⟨given, changes, table, -, checked, updated, same⟩ := updateRecord_eq_ok run
  refine (Model.keepsKeys_put intact member (Table.keys_update updated ?_)).trans
    (Model.keepsKeys_of_tables_eq same)
  intro name among assigned
  refine (not_mem_of_withoutKey checked name assigned).2 ?_
  rw [← Key.names, names]
  exact among

end EntitySet

namespace Service

variable {ctx : Context} {t : Transaction} {segments : List Segment} {suffix : Option Suffix}
  {store after : Store} {response : Response}

/-- Whether a request links two entities. -/
def isLink (t : Transaction) (suffix : Option Suffix) : Prop :=
  suffix = some .ref ∧ (t.request.method = .post ∨ t.request.method = .put)

/-- The relationship that the path of a request leads to, and the record that the request names for
it. -/
def Links (ctx : Context) (t : Transaction) (segments : List Segment) (store : Store)
    (r : Relationship) (record : Record) : Prop :=
  ∃ place parent middle, (walk ctx t segments).runOn store = (.ok place, middle) ∧
    place.parent = some parent ∧
    EntitySet.Named ctx t.request parent.set parent.key parent.navigation place.key middle r record

theorem keepsKeys_of_stores (declared : ∀ set ∈ ctx.model.sets, set.entityType.Declared)
    (intact : ctx.model.Intact)
    (parsed : ResourcePath.parse (ctx.config.endpoint.resourcePath t.request.path) =
      .ok (.resource segments none))
    (method : t.request.method = .patch ∨ t.request.method = .put)
    (run : (execute ctx t).runOn store = (.ok response, after)) :
    ctx.model.KeepsKeys store after := by
  have writes : stores t.request.method = true := by
    rcases method with same | same <;> rw [same] <;> rfl
  rw [execute_of_stores parsed writes] at run
  obtain ⟨⟨place, record⟩, stored, written, answered⟩ := runOn_bind_ok_iff.mp run
  have kept := (reads_answer ctx t place record).tables_eq answered
  obtain ⟨_, middle, _, walked, written⟩ := store?_eq_ok written
  have reached := (reads_walk ctx t _).tables_eq walked
  have member := mem_sets_of_walk walked
  have updated : ∃ key last, (keyOf ctx t place.set place.key).runOn middle = (.ok key, last) ∧
      (place.set.updateRecord t.request.body key).runOn last = (.ok record, stored) := by
    rw [storeAt] at written
    rcases method with same | same
    · rw [same] at written
      obtain ⟨key, last, named, written⟩ := runOn_bind_ok_iff.mp written
      exact ⟨key, last, named, written⟩
    · rw [same] at written
      obtain ⟨key, last, named, written⟩ := runOn_bind_ok_iff.mp written
      exact ⟨key, last, named, written⟩
  obtain ⟨key, last, named, written⟩ := updated
  have same := (reads_keyOf ctx t place.set place.key).tables_eq named
  have names := names_keyOf (declared _ member).key_subset named
  exact (Model.keepsKeys_of_tables_eq (same.trans reached)).trans
    ((EntitySet.keepsKeys_updateRecord intact member names written).trans
      (Model.keepsKeys_of_tables_eq kept))

theorem keepsKeys_referenceRequest {path : ResourcePath} {place : Place}
    (declared : ∀ set ∈ ctx.model.sets, set.entityType.Declared) (intact : ctx.model.Intact)
    (known : ∀ parent, place.parent = some parent → parent.set.definition ∈ ctx.model.sets)
    (other : ¬ (t.request.method = .post ∨ t.request.method = .put))
    (run : (referenceRequest ctx t path place).runOn store = (.ok response, after)) :
    ctx.model.KeepsKeys store after := by
  rw [referenceRequest] at run
  split at run
  next => exact Model.keepsKeys_of_tables_eq ((reads_getReference ctx t path place).tables_eq run)
  next => cases run
  next method _ => exact absurd (.inl method) other
  next method _ => exact absurd (.inr method) other
  next parent _ reached =>
    obtain ⟨⟨⟩, middle, unlinked, result⟩ := runOn_bind_ok_iff.mp run
    cases result
    exact EntitySet.keepsKeys_unlink intact declared (known parent reached) unlinked
  next => cases run

theorem link_of_referenceRequest {path : ResourcePath} {place : Place}
    (method : t.request.method = .post ∨ t.request.method = .put)
    (run : (referenceRequest ctx t path place).runOn store = (.ok response, after)) :
    ∃ parent, place.parent = some parent ∧
      (parent.set.link ctx t.request parent.key parent.navigation place.key).runOn store =
        (.ok (), after) := by
  have links : ∃ parent, place.parent = some parent ∧
      (parent.set.link ctx t.request parent.key parent.navigation place.key >>= fun _ =>
        pure Response.noContent).runOn store = (.ok response, after) := by
    rw [referenceRequest] at run
    cases reached : place.parent with
    | none => rcases method with same | same <;> rw [same, reached] at run <;> cases run
    | some parent =>
      rcases method with same | same <;> rw [same, reached] at run <;> exact ⟨parent, rfl, run⟩
  obtain ⟨parent, reached, run⟩ := links
  obtain ⟨⟨⟩, middle, linked, result⟩ := runOn_bind_ok_iff.mp run
  cases result
  exact ⟨parent, reached, linked⟩

/-- A request that succeeds in updating or unlinking an entity, or in reading a reference, keeps the
keys of all rows.  One that links an entity keeps them exactly if the row that keeps the foreign key
has the same values of its key with the new foreign key as without; so it does if no property of the
foreign key belongs to its key. -/
theorem execute_keepsKeys {declaration : ModelDeclaration}
    (declared : ∀ ty ∈ declaration.types, ty.Declared)
    (built : declaration.build = .ok ctx.model)
    (distinct : ∀ definition ∈ ctx.model.sets,
      Table.HasDistinctKeys definition.entityType (store.rows definition.name.text))
    (parsed : ResourcePath.parse (ctx.config.endpoint.resourcePath t.request.path) =
      .ok (.resource segments suffix))
    (request : suffix = some .ref ∨ t.request.method = .patch ∨ t.request.method = .put)
    (run : (execute ctx t).runOn store = (.ok response, after)) :
    (¬ isLink t suffix → ctx.model.KeepsKeys store after) ∧
      (isLink t suffix → ∃ r record, Links ctx t segments store r record ∧
        r.Assigned record store after ∧
        (ctx.model.KeepsKeys store after ↔ ∀ name ∈ r.keeperSet.entityType.key,
          (r.linkedRow record).value name = (r.keeperRow record).value name) ∧
        ((∀ name ∈ r.foreignNames, name ∉ r.keeperSet.entityType.key) →
          ctx.model.KeepsKeys store after)) := by
  have intact := ModelDeclaration.intact_of_build built
  have declared : ∀ set ∈ ctx.model.sets, set.entityType.Declared := fun set member =>
    declared _ (ModelDeclaration.entityType_mem_of_build built set member)
  cases suffix with
  | none =>
    have method := request.resolve_left (by simp)
    refine ⟨fun _ => keepsKeys_of_stores declared intact parsed method run, fun link => ?_⟩
    cases link.1
  | some suffix =>
    rw [execute, parsed, lift_ok_bind] at run
    obtain ⟨place, middle, walked, run⟩ := runOn_bind_ok_iff.mp run
    have reached := (reads_walk ctx t segments).tables_eq walked
    have before : ctx.model.KeepsKeys store middle := Model.keepsKeys_of_tables_eq reached
    cases suffix with
    | count =>
      have kept := (reads_countRequest ctx t place).tables_eq run
      refine ⟨fun _ => Model.keepsKeys_of_tables_eq (kept.trans reached), fun link => ?_⟩
      cases link.1
    | ref =>
      constructor
      · intro other
        have method := fun link => other ⟨rfl, link⟩
        exact before.trans (keepsKeys_referenceRequest declared intact
          (fun parent => parent_mem_sets_of_walk walked) method run)
      · rintro ⟨-, method⟩
        obtain ⟨parent, source, linked⟩ := link_of_referenceRequest method run
        have member := parent_mem_sets_of_walk walked source
        have apart : ∀ definition ∈ ctx.model.sets,
            Table.HasDistinctKeys definition.entityType (middle.rows definition.name.text) := by
          intro definition among
          rw [Store.rows_congr reached]
          exact distinct definition among
        obtain ⟨r, record, named, keeper, assigned⟩ :=
          EntitySet.assigned_of_link apart member linked
        have iff := (assigned.of_tables_eq reached).keepsKeys_iff intact keeper
        refine ⟨r, record, ⟨place, parent, middle, walked, source, named⟩,
          assigned.of_tables_eq reached, iff, fun outside => iff.mpr fun name among => ?_⟩
        exact Relationship.value_linkedRow_of_not_mem fun foreign => outside name foreign among

/-! People whose passports have their numbers. -/

def documentNumber : Property := ⟨⟨"id", Eq.refl true⟩, .int64, false⟩

def passportOfPerson : NavigationProperty :=
  { name := ⟨"Passport", by decide⟩, target := ⟨"Passport", by decide⟩, collection := false,
    expandable := true, nullable := true, partner := none,
    constraints := [⟨documentNumber.name, documentNumber.name⟩] }

def person : EntityType :=
  ⟨⟨"Person", by decide⟩, [documentNumber], [documentNumber.name], [passportOfPerson]⟩

def passport : EntityType :=
  ⟨⟨"Passport", by decide⟩, [documentNumber], [documentNumber.name], []⟩

theorem declared_passport : passport.Declared := by
  have number : (EntityType.empty passport.name).addProperty documentNumber =
      .ok ⟨passport.name, [documentNumber], [], []⟩ := rfl
  exact .key [documentNumber.name] (.property (.empty passport.name) number)

theorem declared_person : person.Declared := by
  have number : (EntityType.empty person.name).addProperty documentNumber =
      .ok ⟨person.name, [documentNumber], [], []⟩ := rfl
  have navigation : EntityType.addNavigation
      ⟨person.name, [documentNumber], [documentNumber.name], []⟩ passportOfPerson =
      .ok person := rfl
  exact .navigation (.key [documentNumber.name] (.property (.empty person.name) number)) navigation

def passportDeclaration : ModelDeclaration :=
  { space := "Desk", alias? := none, references := [], types := [passport, person],
    sets := [⟨"Passports", "Passport", [], .table .all, none, none⟩,
      ⟨"People", "Person", [], .table .all, none, none⟩] }

def passports : EntitySetDef := ⟨⟨"Passports", by decide⟩, passport, [], .table .all, .all, none⟩

def people : EntitySetDef := ⟨⟨"People", by decide⟩, person, [], .table .all, .all, none⟩

def passportModel : Model :=
  { space := "Desk", alias? := none, references := [], types := [passport, person],
    sets := [passports, people] }

def passportContext : Context := ⟨passportModel, Config.standard, none, .standard⟩

def numbered (number : Value) : Record := [(documentNumber.name, number)]

/-- The first person and the second passport. -/
def documentStore : Store :=
  ⟨[("Passports", [numbered (.int 2)]), ("People", [numbered (.int 1)])], []⟩

/-- The second person and the second passport. -/
def renumberedStore : Store :=
  ⟨[("Passports", [numbered (.int 2)]), ("People", [numbered (.int 2)])], []⟩

/-- The request that gives the second passport to the first person. -/
def putPassport : Transaction :=
  { request := ⟨.put, "/People(1)/Passport(2)/$ref", [], none⟩, options := QueryOptions.empty,
    depth := 0, drawn := .nil }

theorem parse_putPassport :
    ResourcePath.parse (passportContext.config.endpoint.resourcePath putPassport.request.path) =
      .ok (.resource [⟨"People", some "1"⟩, ⟨"Passport", some "2"⟩] (some .ref)) := by
  decide +kernel

theorem execute_putPassport : (execute passportContext putPassport).runOn documentStore =
    (.ok Response.noContent, renumberedStore) := by
  rw [execute, parse_putPassport, lift_ok_bind]
  rfl

/-- The link gives the first person the number of the passport, and so another key. -/
theorem not_keepsKeys_putPassport :
    ¬ passportModel.KeepsKeys documentStore renumberedStore ∧
      ∃ r record, Links passportContext putPassport
          [⟨"People", some "1"⟩, ⟨"Passport", some "2"⟩] documentStore r record ∧
        ∃ name ∈ r.keeperSet.entityType.key,
          (r.linkedRow record).value name ≠ (r.keeperRow record).value name := by
  have declared : ∀ ty ∈ passportDeclaration.types, ty.Declared := by
    intro ty member
    rcases List.mem_cons.mp member with rfl | later
    · exact declared_passport
    · cases List.mem_singleton.mp later
      exact declared_person
  have built : passportDeclaration.build = .ok passportContext.model := rfl
  have distinct : ∀ definition ∈ passportModel.sets,
      Table.HasDistinctKeys definition.entityType (documentStore.rows definition.name.text) := by
    intro definition member
    rcases List.mem_cons.mp member with rfl | later
    · exact List.pairwise_singleton _ _
    · cases List.mem_singleton.mp later
      exact List.pairwise_singleton _ _
  have changed : ¬ passportModel.KeepsKeys documentStore renumberedStore := by
    intro keeps
    have same := keeps people (by simp [passportModel])
    exact absurd same (by decide)
  obtain ⟨r, record, links, -, iff, -⟩ := (execute_keepsKeys declared built distinct
    parse_putPassport (.inl rfl) execute_putPassport).2 ⟨rfl, .inr rfl⟩
  refine ⟨changed, r, record, links, ?_⟩
  by_contra none
  refine changed (iff.mpr fun name member => ?_)
  by_contra other
  exact none ⟨name, member, other⟩

end Service

end OData
