import TypedExpr.Proofs.Ancestors

/-! # Members of the types above

What is found on a class is what the types above it declare. So a class has whatever is found on its
bases, and an interface whatever is found on the interfaces that it extends. A class does not have
the members of its interfaces, although it converts to them.
-/

namespace TypedExpr

namespace Catalog

open ClassType

variable {c d : ClassType} {s t : Ty} {name : String} {isStatic : Bool}

/-! ## What is found on a type -/

/-- A property is found if a type on the way up declares one of that name. -/
theorem property?_isSome_iff : (property? t name isStatic).isSome ↔
    ∃ owner ∈ selfAndBases t, ∃ m ∈ declaredMembers owner,
      m.isStatic = isStatic ∧ Text.sameIgnoringCase m.name name := by
  simp [property?, List.findSome?_isSome_iff, named]

/-- The layers are what the types on the way up declare. -/
theorem mem_layers_iff {found : Ty → List Method} {layer : Layer} : layer ∈ layers t found ↔
    layer.owner ∈ selfAndBases t ∧ layer.methods = found layer.owner ∧ layer.methods ≠ [] := by
  obtain ⟨owner, methods⟩ := layer
  simp only [layers, List.mem_filter, List.mem_map, Layer.mk.injEq, Bool.not_eq_true',
    List.isEmpty_eq_false_iff]
  constructor
  · rintro ⟨⟨_, mem, rfl, rfl⟩, some⟩
    exact ⟨mem, rfl, some⟩
  · rintro ⟨mem, rfl, some⟩
    exact ⟨⟨owner, mem, rfl, rfl⟩, some⟩

theorem layers_subset (above : selfAndBases t ⊆ selfAndBases s) (found : Ty → List Method) :
    layers t found ⊆ layers s found := by
  intro layer mem
  obtain ⟨owner, rest⟩ := mem_layers_iff.mp mem
  exact mem_layers_iff.mpr ⟨above owner, rest⟩

/-! ## What is found on a class -/

/-- All that is above a class of the same kind is above the class itself. -/
theorem selfAndBases_subset (above : c.Above d) (kind : c.isInterface = d.isInterface) :
    selfAndBases (.cls d) ⊆ selfAndBases (.cls c) := by
  intro t mem
  rcases mem_selfAndBases_cls.mp mem with same | ⟨e, same, above'⟩
  · exact mem_selfAndBases_cls.mpr (.inl same)
  · exact mem_selfAndBases_cls.mpr (.inr ⟨e, same, above.trans kind above'⟩)

/-- The properties of a class are those that the classes above it declare. `Object` has none. -/
theorem property?_cls_isSome_iff : (property? (.cls c) name isStatic).isSome ↔
    ∃ e, c.Above e ∧ ∃ m ∈ classMembers e,
      m.isStatic = isStatic ∧ Text.sameIgnoringCase m.name name := by
  rw [property?_isSome_iff]
  constructor
  · rintro ⟨owner, mem, m, declared, spelled⟩
    rcases mem_selfAndBases_cls.mp mem with rfl | ⟨e, rfl, above⟩
    · cases declared
    · exact ⟨e, above, m, declared, spelled⟩
  · rintro ⟨e, above, m, declared, spelled⟩
    exact ⟨.cls e, mem_selfAndBases_cls.mpr (.inr ⟨e, rfl, above⟩), m, declared, spelled⟩

/-- A class has the properties, methods and indexers of its bases, and an interface those of the
interfaces that it extends. Of properties a class has no others than its bases declare, so that it
has one of an interface only where a base declares it, too. -/
theorem members_inherited :
    (∀ {c d : ClassType}, c.Above d → c.isInterface = d.isInterface →
      c.derivesFrom d ∧
      (∀ name isStatic, (property? (.cls d) name isStatic).isSome →
        (property? (.cls c) name isStatic).isSome) ∧
      (∀ name isStatic, methods (.cls d) name isStatic ⊆ methods (.cls c) name isStatic) ∧
      indexers (.cls d) ⊆ indexers (.cls c)) ∧
    ∀ (c : ClassType) (name : String) (isStatic : Bool),
      (property? (.cls c) name isStatic).isSome ↔ ∃ e, c.Above e ∧ ∃ m ∈ classMembers e,
        m.isStatic = isStatic ∧ Text.sameIgnoringCase m.name name := by
  refine ⟨fun {c d} above kind => ⟨above.derivesFrom, fun name isStatic found => ?_,
    fun name isStatic => layers_subset (selfAndBases_subset above kind) _,
    layers_subset (selfAndBases_subset above kind) _⟩,
    fun c name isStatic => property?_cls_isSome_iff⟩
  obtain ⟨e, above', declared⟩ := property?_cls_isSome_iff.mp found
  exact property?_cls_isSome_iff.mpr ⟨e, above.trans kind above', declared⟩

private def shape : ClassType :=
  ⟨1, "Shape", none, [], true, none, [⟨"Area", .double⟩], [], [], [], []⟩

private def polygon : ClassType := ⟨2, "Polygon", none, [shape], true, none, [], [], [], [], []⟩

/-- An interface that extends another one in two ways. -/
private def rectangle : ClassType :=
  ⟨3, "Rectangle", none, [polygon, shape], true, none, [], [], [], [], []⟩

private def square : ClassType :=
  ⟨4, "Square", none, [shape], false, none, [], [], [], [], []⟩

theorem members_inherited_area :
    rectangle.Above shape ∧ rectangle.isInterface = shape.isInterface ∧
      (property? (.cls shape) "area" false).isSome ∧
      (property? (.cls rectangle) "area" false).isSome := by
  have above : rectangle.Above shape :=
    .head (show Extends rectangle polygon from List.mem_cons_self)
      (.single (show Extends polygon shape from List.mem_cons_self))
  have found : (property? (.cls shape) "area" false).isSome := by rfl
  exact ⟨above, rfl, found, (members_inherited.1 above rfl).2.1 _ _ found⟩

/-- A class derives from its interface and still does not have its property. -/
theorem interface_property_lost :
    square.derivesFrom shape ∧ (property? (.cls shape) "Area" false).isSome ∧
      property? (.cls square) "Area" false = none :=
  ⟨by decide, by rfl, by rfl⟩

end Catalog
end TypedExpr
