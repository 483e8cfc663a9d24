import Fieldwise.Proofs.Registry.Shapes
import Fieldwise.Proofs.Service.Frame

/-!
What writing a record hands to setters. Direct fields are coerced to the declared type of their
path, so their values fit wherever references are as declared. What a reference field assigns has
the shape of the JSON that it is written from, whatever type is declared for its path.
-/

namespace Fieldwise

/-- An array is for a collection; for a reference it is anything else; null is for any type. -/
def Json.suits : Json → PropertyType → Bool
  | null, _ => true
  | array _, .collection _ => true
  | array _, _ => false
  | _, .reference _ => true
  | _, _ => false

namespace Engine

def deviating (other : Deviation) (e : Engine) : Engine :=
  { e with registry := e.registry.deviating other }

variable {e : Engine} {other : Deviation} {w w' : World} {h : Handle} {f : Field} {record : Record}

theorem fits_assigned {v : Json} {u : PropertyValue}
    (hassigned : e.assigned f v w = .ok (some u) w') (type : PropertyType) :
    type.fits u = v.suits type := by
  have hlist (found : List Handle) (items : List Json) :
      type.fits (.list (found.map .reference)) = (Json.array items).suits type := by
    cases type <;> simp [PropertyType.fits, Json.suits, PropertyValue.reference?]
  have hsingle (g : Handle) : type.fits (.reference g) = (Json.text "").suits type := by
    cases type <;> rfl
  unfold assigned at hassigned
  split at hassigned
  · next hnull =>
    obtain rfl : v = .null := by
      cases v with
      | null => rfl
      | _ => cases hnull
    cases hassigned
    rw [type.fits_null]
    rfl
  · next hnull =>
    cases hrelated : e.related? f with
    | none =>
      rw [hrelated] at hassigned
      cases hassigned
    | some related =>
      rw [hrelated] at hassigned
      obtain ⟨typeName, w₁, -, hassigned⟩ := bind_eq_ok.mp hassigned
      cases v with
      | null => exact absurd rfl hnull
      | array items =>
        obtain ⟨found, w₂, -, hassigned⟩ := bind_eq_ok.mp hassigned
        cases hassigned
        exact hlist found items
      | _ =>
        obtain ⟨found?, w₂, -, hassigned⟩ := bind_eq_ok.mp hassigned
        cases found? with
        | none => cases hassigned
        | some g =>
          cases hassigned
          rw [hsingle]
          cases type <;> rfl

theorem assigned_deviating (f : Field) (v : Json) :
    (e.deviating other).assigned f v = e.assigned f v := by
  have hresolveAll (table typeName : String) (items : List Json) :
      (e.deviating other).resolveAll table typeName f items =
        e.resolveAll table typeName f items := by
    induction items with
    | nil => rfl
    | cons item rest ih =>
      unfold resolveAll
      rw [ih]
      rfl
  simp only [assigned, hresolveAll]
  rfl

theorem target_deviating (existing : Option Handle) (entity : Entity) (fields : List Field) :
    (e.deviating other).target record existing entity fields =
      e.target record existing entity fields := by
  have hinstantiate : (e.deviating other).instantiate entity = e.instantiate entity := by
    change (e.typeOfTable entity.table >>= _) = (e.typeOfTable entity.table >>= _)
    congr 1
    funext name
    simp only [deviating, Registry.type?_deviating]
    cases e.registry.type? name <;> rfl
  unfold target
  rw [hinstantiate]

theorem auditWritten_deviating (h : Handle) (isNew : Bool) :
    (e.deviating other).auditWritten h isNew = e.auditWritten h isNew := by
  have hauditable (typeName : String) :
      (e.deviating other).registry.isAuditable typeName = e.registry.isAuditable typeName := by
    simp only [deviating, Registry.isAuditable, Registry.type?_deviating]
    cases e.registry.type? typeName <;> rfl
  simp only [auditWritten, hauditable]
  rfl

/-- A direct field is written as ever where references are as declared. -/
theorem writeDirect_deviating (hrefers : w.heap.RefersAsDeclared e.registry) (v : Json) :
    (e.deviating other).writeDirect h f v w = e.writeDirect h f v w := by
  simp only [writeDirect, Action.changeHeap, deviating, Registry.declaredType_deviating]
  cases htype : e.registry.declaredType (w.heap.get h).typeName f.property with
  | error err => rfl
  | ok type =>
    cases hcoerce : coerce e.settings f.property type v with
    | error err => simp only [bind, Except.bind, hcoerce]
    | ok u =>
      have hset : (e.registry.deviating other).setPath w.heap h f.property u =
          e.registry.setPath w.heap h f.property u := by
        refine Registry.setPath_deviating fun g a hat _ => ?_
        rw [Registry.type_of_accessorAt hrefers htype hat]
        exact fits_of_coerce hcoerce
      simp only [bind, Except.bind, hcoerce, hset]

/-- If a reference field comes to an assignment, its JSON suits the property that is assigned to. -/
def Suits (e : Engine) (record : Record) (h : Handle) (f : Field) (w : World) : Prop :=
  f.kind = .reference → ∀ v u w' g a, record.get? f.name = some v →
    e.assigned f v w = .ok (some u) w' →
    e.registry.accessorAt w.heap h f.property = .ok (some (g, a)) → a.isWritable →
    v.suits a.type = true

theorem writeReference_deviating {v : Json}
    (hsuits : ∀ u w' g a, e.assigned f v w = .ok (some u) w' →
      e.registry.accessorAt w.heap h f.property = .ok (some (g, a)) → a.isWritable →
      v.suits a.type = true) :
    (e.deviating other).writeReference h f v w = e.writeReference h f v w := by
  rw [writeReference_eq, writeReference_eq, assigned_deviating, bind_apply, bind_apply]
  cases hassigned : e.assigned f v w with
  | error err w' => rfl
  | ok u? w' =>
    cases u? with
    | none => rfl
    | some u =>
      have hheap : w'.heap = w.heap := ((keeps_assigned f v).of_ok hassigned).heap
      have hset : (e.registry.deviating other).setPath w'.heap h f.property u =
          e.registry.setPath w'.heap h f.property u := by
        refine Registry.setPath_deviating fun g a hat hwritable => ?_
        rw [fits_assigned hassigned]
        exact hsuits u w' g a hassigned (hheap ▸ hat) hwritable
      simp only [Action.changeHeap, deviating, hset]

theorem writeEntry_deviating (hrefers : w.heap.RefersAsDeclared e.registry)
    (hsuits : e.Suits record h f w) :
    (e.deviating other).writeEntry record h f w = e.writeEntry record h f w := by
  unfold writeEntry
  cases hv : record.get? f.name with
  | none => rfl
  | some v =>
    cases hkind : f.kind with
    | direct => exact writeDirect_deviating hrefers v
    | reference => exact writeReference_deviating fun u w' g a => hsuits hkind v u w' g a hv
    | _ => rfl

/-- Otherwise a setter is given what does not fit, and may fail for that. -/
theorem writeEntry_deviating_of_not_suits (hsuits : ¬ e.Suits record h f w) :
    ∃ w', ∀ err, (e.deviating fun _ _ _ => .error err).writeEntry record h f w =
      .error (.error err) w' := by
  simp only [Suits, not_forall] at hsuits
  obtain ⟨hkind, v, u, w', g, a, hv, hassigned, hat, hwritable, hsuits⟩ := hsuits
  have hheap : w'.heap = w.heap := ((keeps_assigned f v).of_ok hassigned).heap
  have hfits : a.type.fits u = false := by
    rw [fits_assigned hassigned]
    simpa using hsuits
  refine ⟨w', fun err => ?_⟩
  have hset : (e.registry.deviating fun _ _ _ => .error err).setPath w'.heap h f.property u = _ :=
    Registry.setPath_deviating_of_not_fits (hheap ▸ hat) hwritable hfits
  unfold writeEntry
  rw [hv, hkind]
  change (e.deviating fun _ _ _ => .error err).writeReference h f v w = _
  rw [writeReference_eq, bind_apply, assigned_deviating, hassigned]
  simp only [Action.changeHeap, deviating, hset, bind, Except.bind]

/-- Writing a record with the given fields comes to the field, in a world, for an object. -/
def Writes (e : Engine) (record : Record) (existing : Option Handle) (entity : Entity)
    (fields : List Field) (w : World) (f : Field) (h : Handle) (w' : World) : Prop :=
  ∃ done rest w₀, fields = done ++ f :: rest ∧
    e.target record existing entity fields w = .ok h w₀ ∧
    done.forM (e.writeEntry record h) w₀ = .ok () w'

theorem forM_deviating {fields : List Field}
    (hfields : ∀ done f rest w', fields = done ++ f :: rest →
      done.forM (e.writeEntry record h) w = .ok () w' →
      (e.deviating other).writeEntry record h f w' = e.writeEntry record h f w') :
    fields.forM ((e.deviating other).writeEntry record h) w =
      fields.forM (e.writeEntry record h) w := by
  induction fields generalizing w with
  | nil => rfl
  | cons f rest ih =>
    rw [forM_cons_apply, forM_cons_apply, bind_apply, bind_apply,
      hfields [] f rest w rfl rfl]
    cases hwrite : e.writeEntry record h f w with
    | error err w' => rfl
    | ok _ w' =>
      refine ih fun done g rest' w'' hsplit hdone => ?_
      refine hfields (f :: done) g rest' w'' (by rw [hsplit, List.cons_append]) ?_
      rw [forM_cons_apply, bind_apply, hwrite]
      exact hdone

/-- Where references are as declared in every world in which a field is written, no setter is given
a value that does not fit, which is to say that it makes no difference what setters do with one,
exactly if the JSON of each reference field that is assigned suits the property that it is assigned
to. Direct fields have no part in it. -/
theorem writeRecord_deviating_iff (e : Engine) (record : Record) (existing : Option Handle)
    (entity : Entity) (fields : List Field) (w : World)
    (hrefers : ∀ f h w', e.Writes record existing entity fields w f h w' →
      w'.heap.RefersAsDeclared e.registry) :
    (∀ other, (e.deviating other).writeRecord record existing entity fields w =
      e.writeRecord record existing entity fields w) ↔
    ∀ f h w', e.Writes record existing entity fields w f h w' → e.Suits record h f w' := by
  constructor
  · intro hsame f h w' hwrites
    obtain ⟨done, rest, w₀, hsplit, htarget, hdone⟩ := hwrites
    -- By induction on the fields before: they suit, so the field itself is come to.
    induction hn : done.length using Nat.strong_induction_on generalizing done rest f w' with
    | _ n ih =>
      by_contra hsuits
      obtain ⟨w'', hfails⟩ := writeEntry_deviating_of_not_suits hsuits
      have hreached (other : Deviation) :
          done.forM ((e.deviating other).writeEntry record h) w₀ = .ok () w' := by
        rw [← hdone]
        refine forM_deviating fun done' g rest' w₁ hsplit' hdone' => ?_
        have hsplit₁ : fields = done' ++ g :: (rest' ++ f :: rest) := by
          rw [hsplit, hsplit', List.append_assoc, List.cons_append]
        have hshort : done'.length < n := by
          rw [← hn, hsplit', List.length_append, List.length_cons]
          omega
        exact writeEntry_deviating (hrefers g h w₁ ⟨done', _, w₀, hsplit₁, htarget, hdone'⟩)
          (ih _ hshort g w₁ done' _ hsplit₁ hdone' rfl)
      have hends (err : Error) :
          e.writeRecord record existing entity fields w = .error (.error err) w'' := by
        have hforM : fields.forM ((e.deviating fun _ _ _ => .error err).writeEntry record h) w₀ =
            .error (.error err) w'' :=
          forM_eq_error.mpr ⟨done, f, rest, w', hsplit, hreached _, hfails err⟩
        rw [← hsame fun _ _ _ => .error err, writeRecord, bind_apply, target_deviating, htarget]
        simp only [writeOnto, bind_apply, hforM]
      have htwo := (hends .invalidToml).symm.trans (hends (.internal ""))
      cases htwo
  · intro hsuits other
    have hfields {h : Handle} {w₀ : World}
        (htarget : e.target record existing entity fields w = .ok h w₀) :
        fields.forM ((e.deviating other).writeEntry record h) w₀ =
          fields.forM (e.writeEntry record h) w₀ := by
      refine forM_deviating fun done f rest w' hsplit hdone => ?_
      have hwrites : e.Writes record existing entity fields w f h w' :=
        ⟨done, rest, w₀, hsplit, htarget, hdone⟩
      exact writeEntry_deviating (hrefers f h w' hwrites) (hsuits f h w' hwrites)
    rw [writeRecord, writeRecord, bind_apply, bind_apply, target_deviating]
    cases htarget : e.target record existing entity fields w with
    | error err w₀ => rfl
    | ok h w₀ =>
      simp only [writeOnto, bind_apply, hfields htarget, auditWritten_deviating]

end Engine

namespace Sample

/-- A category, which is stored, and a product of it. -/
def shelf : World := { World.empty with
  heap := [
    ⟨category.kind, [("id", .text "C1"), ("name", .text "Tools")]⟩,
    ⟨product.kind, [("sku", .text "A100"), ("category", .reference 0)]⟩]
  store := [(("Category", "C1"), 0)] }

def shelved (category : Json) : Record := [("sku", .text "A100"), ("category", category)]

end Sample

namespace Engine

set_option maxRecDepth 4000 in
theorem shelved_deviating : Sample.shelf.heap.RefersAsDeclared Sample.registry ∧
    ∀ other, (Sample.engine.deviating other).writeRecord (Sample.shelved (.text "C1")) (some 1)
        Sample.productEntity Sample.productEntity.fields Sample.shelf =
      Sample.engine.writeRecord (Sample.shelved (.text "C1")) (some 1)
        Sample.productEntity Sample.productEntity.fields Sample.shelf := by
  have hcells : ∀ n < 11,
      let w' := after ((Sample.productEntity.fields.take n).forM
        (Sample.engine.writeEntry (Sample.shelved (.text "C1")) 1)) Sample.shelf
      (∀ o ∈ .nothing :: w'.heap, ∀ d ∈ Sample.types, d.name = o.typeName →
        ∀ p ∈ d.properties, p.refersIn w'.heap o = true) ∧
      (w'.heap.get 1).typeName = "Product" := by decide +kernel
  have hpoints {f : Field} {h : Handle} {w' : World} (hwrites : Sample.engine.Writes
      (Sample.shelved (.text "C1")) (some 1) Sample.productEntity Sample.productEntity.fields
      Sample.shelf f h w') : h = 1 ∧ f ∈ Sample.productEntity.fields ∧
        w'.heap.RefersAsDeclared Sample.registry ∧ (w'.heap.get 1).typeName = "Product" := by
    obtain ⟨done, rest, w₀, hsplit, htarget, hdone⟩ := hwrites
    obtain ⟨rfl, rfl⟩ : 1 = h ∧ Sample.shelf = w₀ := by
      have htarget' : Sample.engine.target (Sample.shelved (.text "C1")) (some 1)
          Sample.productEntity Sample.productEntity.fields Sample.shelf = .ok 1 Sample.shelf := rfl
      rw [htarget'] at htarget
      cases htarget
      exact ⟨rfl, rfl⟩
    have hlength : done.length < 11 := by
      have := congrArg List.length hsplit
      simp only [List.length_append, List.length_cons] at this
      change 11 = _ at this
      omega
    obtain ⟨hrefers, hname⟩ := hcells done.length hlength
    have htake : Sample.productEntity.fields.take done.length = done := by simp [hsplit]
    rw [htake, after_of_ok hdone] at hrefers hname
    exact ⟨rfl, by simp [hsplit], Heap.refersAsDeclared_of_definitions rfl hrefers, hname⟩
  refine ⟨Heap.refersAsDeclared_of_definitions rfl (by decide +kernel),
    (writeRecord_deviating_iff _ _ _ _ _ _ fun f h w' hwrites => (hpoints hwrites).2.2.1).mpr ?_⟩
  intro f h w' hwrites hkind v u w'' g a hv hassigned hat _
  obtain ⟨rfl, hf, hrefers, hname⟩ := hpoints hwrites
  obtain rfl : .reference "category" "category" "CAT" = f := by
    have honly : ∀ f ∈ Sample.productEntity.fields, f.kind = .reference →
        .reference "category" "category" "CAT" = f := by decide
    exact honly f hf hkind
  have hv' : (Sample.shelved (.text "C1")).get? "category" = some (.text "C1") := rfl
  obtain rfl := Option.some.inj (hv'.symm.trans hv)
  have htype : a.type = .reference "Category" := by
    refine Registry.type_of_accessorAt hrefers ?_ hat
    rw [hname]
    rfl
  rw [htype]
  rfl

set_option maxRecDepth 4000 in
/-- A list of one id takes the category away from the product, and no error tells it: the setter has
been given a list. -/
theorem listed_deviating :
    Sample.shelf.heap.RefersAsDeclared Sample.registry ∧
    (∃ w', Sample.engine.writeRecord (Sample.shelved (.array [.text "C1"])) (some 1)
        Sample.productEntity Sample.productEntity.fields Sample.shelf = .ok 1 w' ∧
      Sample.registry.getProperty Sample.shelf.heap 1 "category" = .ok (.reference 0) ∧
      Sample.registry.getProperty w'.heap 1 "category" = .ok .null) ∧
    ∃ other, (Sample.engine.deviating other).writeRecord (Sample.shelved (.array [.text "C1"]))
        (some 1) Sample.productEntity Sample.productEntity.fields Sample.shelf ≠
      Sample.engine.writeRecord (Sample.shelved (.array [.text "C1"])) (some 1)
        Sample.productEntity Sample.productEntity.fields Sample.shelf := by
  have hwrite := eq_ok_of_value? (x := Sample.engine.writeRecord
    (Sample.shelved (.array [.text "C1"])) (some 1) Sample.productEntity
    Sample.productEntity.fields) (s := Sample.shelf) (a := 1) (by decide +kernel)
  refine ⟨Heap.refersAsDeclared_of_definitions rfl (by decide +kernel), ⟨_, hwrite, rfl, rfl⟩,
    fun _ _ _ => .error .invalidToml, ?_⟩
  rw [hwrite]
  have hfails := eq_error_of_error? (x := (Sample.engine.deviating
    fun _ _ _ => .error .invalidToml).writeRecord (Sample.shelved (.array [.text "C1"])) (some 1)
    Sample.productEntity Sample.productEntity.fields) (s := Sample.shelf) (e := .invalidToml)
    (by decide +kernel)
  rw [hfails]
  nofun

end Engine

end Fieldwise
