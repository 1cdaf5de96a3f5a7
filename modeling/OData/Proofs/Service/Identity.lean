import OData.Proofs.Endpoint
import OData.Proofs.KeyText
import OData.Proofs.Service.Reads
import OData.Proofs.Service.Scope
import OData.Proofs.Transaction

/-!
# Identities of entities

The URL of an entity names its set and its key.  A request to that URL finds the row of the entity,
unless a question mark in it begins a query, or the route of the endpoint is taken off a second
time.
-/

set_option autoImplicit false

namespace OData

open OData.Action

namespace Service

variable {ctx : Context} {definition : EntitySetDef} {row : Record} {entity : Entity}
  {store : Store}

/-- The segment of an entity in a path. -/
def entitySegment (definition : EntitySetDef) (key : Key) : Segment :=
  ⟨definition.name.text, some key.innerText⟩

theorem toText_entitySegment (named : entity.set = definition.name) :
    ResourcePath.toText (.resource [entitySegment definition entity.key] none) = entity.id := by
  rw [ResourcePath.toText, Entity.id, named, Key.toText_eq]
  simp [entitySegment, Segment.toText, String.append_assoc]

theorem readable_entitySegment {key : Key}
    (literals : ∀ entry ∈ key.values, entry.2.HasLiteral) :
    (entitySegment definition key).Readable := by
  refine ⟨definition.name.isIdentifier, ?_⟩
  rintro _ ⟨⟩
  exact Key.passes_innerText literals

/-- The path of an entity leads to its set, with the text of its key. -/
theorem walk_entitySegment {key : Key} (t : Transaction) (intact : ctx.model.Intact)
    (member : definition ∈ ctx.model.sets) : walk ctx t [entitySegment definition key] =
      pure ⟨EntitySet.root definition, some key.innerText, none⟩ := by
  rw [walk, rootSet, entitySegment, intact.entitySet?_name member]
  rfl

/-- The entity of a row, read without options. -/
theorem runOn_readEntity {key read : Key} {t : Transaction} (plain : t.options = QueryOptions.empty)
    (capable : definition.capabilities.require .read = .ok ())
    (made : Key.ofRecord definition.entityType row = .ok key)
    (found : (store.rows definition.name.text).read read = some row) :
    (readEntity ctx t (EntitySet.root definition) read).runOn store =
      (.ok ⟨definition.name, key, (EntitySet.root definition).selectedValues none row, []⟩,
        store) := by
  have reading : ((EntitySet.root definition).readScoped read).runOn store = (.ok row, store) :=
    (EntitySet.runOn_readScoped_root_ok_iff rfl).mpr ⟨capable, found, rfl⟩
  have planned : ∃ plan, (EntitySet.root definition).plan ctx QueryOptions.empty = .ok plan ∧
      plan.select = none := ⟨_, rfl, rfl⟩
  obtain ⟨plan, planned, all⟩ := planned
  have entity : (EntitySet.root definition).plainEntity none row =
      .ok ⟨definition.name, key, (EntitySet.root definition).selectedValues none row, []⟩ := by
    rw [EntitySet.plainEntity, EntitySet.entityType, EntitySet.root, made]
    rfl
  rw [readEntity, runOn_bind_of_ok reading, plain, planned, lift_ok_bind, all, maker, plain,
    EntitySet.materialize_of_plain ctx t.request t.depth none row rfl, entity]
  rfl

/-- The request for the entity with a key, without options. -/
theorem runOn_entityRequest {key read : Key} {t : Transaction} (method : t.request.method = .get)
    (plain : t.options = QueryOptions.empty)
    (capable : definition.capabilities.require .read = .ok ())
    (made : Key.ofRecord definition.entityType row = .ok key)
    (parsed : Key.parse definition.entityType key.innerText = .ok read)
    (found : (store.rows definition.name.text).read read = some row) (path : ResourcePath) :
    (entityRequest ctx t path ⟨EntitySet.root definition, some key.innerText, none⟩).runOn store =
      (.ok ⟨200, .json (plainJson ctx ⟨definition.name, key,
        (EntitySet.root definition).selectedValues none row, []⟩)⟩, store) := by
  have type : (EntitySet.root definition).entityType = definition.entityType := rfl
  have empty : t.options.expand = [] := by rw [plain]; rfl
  rw [entityRequest, method]
  simp only [getRequest, type, parsed]
  rw [lift_ok_bind, runOn_bind_of_ok (runOn_readEntity plain capable made found),
    entityResponse_of_plain ctx empty]
  rfl

/-- A request for the URL of an entity finds the row of the entity, if no question mark begins a
query in the URL and the route of the endpoint does not lead on in the path of the entity. -/
theorem execute_entityUrl {declaration : ModelDeclaration} (limits : QueryLimits)
    (body : Option Json) (drawn : Guid) (declared : ∀ ty ∈ declaration.types, ty.Declared)
    (built : declaration.build = .ok ctx.model) (member : definition ∈ ctx.model.sets)
    (distinct : Table.HasDistinctKeys definition.entityType (store.rows definition.name.text))
    (stored : row ∈ store.rows definition.name.text)
    (whole : ∀ other ∈ store.rows definition.name.text, ∀ name ∈ definition.entityType.key,
      (other.value name).isDouble = false)
    (readable : Key.HasReadableKey definition.entityType row)
    (named : entity.set = definition.name)
    (made : Key.ofRecord definition.entityType row = .ok entity.key)
    (queryless : '?' ∉ (entityUrl ctx entity).toList)
    (routed : ctx.config.endpoint.isRouted entity.id = false) :
    ∃ t, Transaction.ofUri limits .get (entityUrl ctx entity) body drawn = .ok t ∧
      (execute ctx t).runOn store =
        (.ok ⟨200, .json (plainJson ctx { entity with
          values := (EntitySet.root definition).selectedValues none row })⟩, store) := by
  have intact := ModelDeclaration.intact_of_build built
  have type := ModelDeclaration.entityType_mem_of_build built definition member
  have known := (declared _ type).key_subset
  have nonempty := ModelDeclaration.key_ne_nil_of_build built _ (intact.known definition member)
  have exactly : ∀ other ∈ store.rows definition.name.text,
      Key.HasExactValues definition.entityType.keyProperties other :=
    fun other among property key _ => whole other among property.name
      (EntityType.map_name_keyProperties known ▸ List.mem_map_of_mem key)
  obtain ⟨read, parsed, found⟩ :=
    Table.exists_read_innerText known nonempty made readable distinct stored exactly
  have segment : (entitySegment definition entity.key).Readable :=
    readable_entitySegment (Key.hasLiteral_of_mem_values made known readable)
  have parses : ResourcePath.parse entity.id =
      .ok (.resource [entitySegment definition entity.key] none) := by
    rw [← toText_entitySegment named]
    exact ResourcePath.parse_segments segment (by simp)
  have path : ctx.config.endpoint.resourcePath (entityUrl ctx entity) = entity.id := by
    apply Endpoint.resourcePath_url routed
    rw [← toText_entitySegment named]
    exact ResourcePath.not_slash_of_head? segment []
  refine ⟨_, Transaction.ofUri_eq_ok limits .get body drawn queryless, ?_⟩
  rw [execute, path, parses, lift_ok_bind]
  simp only
  rw [walk_entitySegment _ intact member, pure_bind]
  have capable := intact.readable definition member
  refine (runOn_entityRequest ?_ ?_ capable made parsed found _).trans ?_
  · rfl
  · rfl
  · rw [← named]
    rfl

/-! Labels that are told apart by their texts. -/

def labelText : Property := ⟨⟨"text", Eq.refl true⟩, .string, false⟩

def label : EntityType := ⟨⟨"Label", Eq.refl true⟩, [labelText], [labelText.name], []⟩

theorem declared_label : label.Declared := by
  have text : (EntityType.empty label.name).addProperty labelText =
      .ok ⟨label.name, [labelText], [], []⟩ := rfl
  exact .key [labelText.name] (.property (.empty label.name) text)

def labelDeclaration : ModelDeclaration :=
  { space := "Desk", alias? := none, references := [], types := [label],
    sets := [⟨"Labels", "Label", [], .table .all, none, none⟩] }

def labels : EntitySetDef := ⟨⟨"Labels", Eq.refl true⟩, label, [], .table .all, .all, none⟩

def labelContext : Context :=
  ⟨{ space := "Desk", alias? := none, references := [], types := [label], sets := [labels] },
    Config.standard, none, .standard⟩

def labelled (text : String) : Record := [(labelText.name, .string text)]

def labelStore : Store := ⟨[("Labels", [labelled "so", labelled "it's (a/b"])], []⟩

/-- The second label, whose text has a quote, a bracket and a slash. -/
def secondLabel : Entity :=
  ⟨labels.name, ⟨[(labelText.name, .string "it's (a/b")]⟩, labelled "it's (a/b", []⟩

theorem execute_secondLabel :
    entityUrl labelContext secondLabel = "http://localhost/odata/Default/Labels('it''s (a/b')" ∧
      ∃ t, Transaction.ofUri .standard .get (entityUrl labelContext secondLabel) none .nil = .ok t ∧
        (execute labelContext t).runOn labelStore =
          (.ok ⟨200, .json (plainJson labelContext secondLabel)⟩, labelStore) := by
  refine ⟨by decide +kernel, ?_⟩
  have declared : ∀ ty ∈ labelDeclaration.types, ty.Declared := by
    intro ty member
    rw [List.mem_singleton.mp member]
    exact declared_label
  have distinct : Table.HasDistinctKeys label (labelStore.rows "Labels") := by
    refine List.pairwise_pair.mpr fun same => ?_
    exact absurd (same labelText.name List.mem_cons_self) (by decide)
  have whole : ∀ other ∈ labelStore.rows "Labels", ∀ name ∈ label.key,
      (other.value name).isDouble = false := by decide
  have readable : Key.HasReadableKey label (labelled "it's (a/b") := by
    intro property member
    rw [List.mem_singleton.mp member]
    decide
  have built : labelDeclaration.build = .ok labelContext.model := rfl
  have member : labels ∈ labelContext.model.sets := List.mem_cons_self
  exact execute_entityUrl .standard none .nil declared built member distinct (by decide) whole
    readable rfl rfl (by decide +kernel) (by decide +kernel)

/-! ## Question marks -/

/-- A question mark in the text of an entity stands in its key. -/
theorem exists_piece {before after : String} (cut : entity.id = before ++ "?" ++ after) :
    ∃ piece, before.toList = entity.set.text.toList ++ '(' :: piece ∧
      piece <+: entity.key.innerText.toList := by
  have mark : "?".toList = ['?'] := rfl
  have opening : "(".toList = ['('] := rfl
  have closing : ")".toList = [')'] := rfl
  have chars := congrArg String.toList cut
  rw [Entity.id, Key.toText_eq] at chars
  simp only [String.toList_append, mark, opening, closing, List.append_assoc,
    List.singleton_append] at chars
  have noMark : '?' ∉ entity.set.text.toList := entity.set.not_mem_text (by decide)
  rcases List.append_eq_append_iff.mp chars with ⟨piece, name, rest⟩ | ⟨piece, name, rest⟩
  · rcases piece with _ | ⟨ch, piece⟩
    · exact absurd (List.cons.inj rest).1 (by decide)
    · obtain ⟨rfl, inner⟩ := List.cons.inj rest
      refine ⟨piece, name, ?_⟩
      rcases List.append_eq_append_iff.mp inner with ⟨last, _, bracket⟩ | ⟨more, whole, _⟩
      · rcases last with _ | ⟨d, last⟩
        · exact absurd (List.cons.inj bracket).1 (by decide)
        · simp at bracket
      · exact ⟨more, whole.symm⟩
  · rcases piece with _ | ⟨ch, piece⟩
    · exact absurd (List.cons.inj rest).1 (by decide)
    · rw [(List.cons.inj rest).1, name] at noMark
      exact absurd (by simp) noMark

/-- If a question mark stands in the key, what is before it is refused as a path. -/
theorem execute_entityUrl_error {limits : QueryLimits} {body : Option Json} {drawn : Guid}
    {t : Transaction} {before after : String}
    (literals : ∀ entry ∈ entity.key.values, entry.2.HasLiteral)
    (cut : entity.id = before ++ "?" ++ after)
    (first : '?' ∉ (ctx.config.endpoint.url ++ "/" ++ before).toList)
    (routed : ctx.config.endpoint.isRouted before = false)
    (sent : Transaction.ofUri limits .get (entityUrl ctx entity) body drawn = .ok t) :
    ∃ e, (execute ctx t).runOn store = (.error e, store) := by
  obtain ⟨piece, chars, part⟩ := exists_piece cut
  obtain ⟨ch, run, name, start, _⟩ := exists_chars_of_isIdentifier entity.set.isIdentifier
  have head : ∀ c ∈ before.toList.head?, Endpoint.isSlash c = false := by
    rw [chars, name]
    rintro _ ⟨⟩
    exact ResourcePath.not_slash_of_isNameChar (Text.isNameChar_of_isNameStart ch start)
  have path : t.request.path = ctx.config.endpoint.url ++ "/" ++ before := by
    have text : entityUrl ctx entity =
        ctx.config.endpoint.url ++ "/" ++ before ++ "?" ++ after := by
      rw [entityUrl, cut]
      simp only [String.append_assoc]
    rw [(Transaction.ofUri_spec sent).1, text, Transaction.splitUri_append first]
  obtain ⟨e, refused⟩ :=
    ResourcePath.exists_parse_error entity.set.isIdentifier (Key.passes_innerText literals) part
  rw [← chars, String.ofList_toList] at refused
  refine ⟨e, ?_⟩
  rw [execute, path, Endpoint.resourcePath_url routed head, refused]
  rfl

end Service

end OData
