import Fieldwise.Json.Fields
import Mathlib.Data.List.Forall2
import Mathlib.Data.List.Nodup

/-!
Layouts of records, and what it takes for a document to have one: each field is given at most once,
by its name or in its place, those that may not be left out are given, and what is given for a
field fits it. Members of other names do not count.
-/

namespace Fieldwise.Json

/-- One field of a layout. -/
structure LayoutField where
  name : String
  optional : Bool
  Fits : Node → Prop

/-- The field may have what is given for it, or may be left out. -/
def LayoutField.Admits (field : LayoutField) : Option Node → Prop
  | none => field.optional
  | some node => field.Fits node

/-- The members of an object by their names, if all of these can be read. -/
def named? (members : List (List TextPart × Node)) : Option (Table String Node) :=
  members.mapM fun member => (textOf? member.1).map (·, member.2)

namespace Node

/-- By name, a field that is not there is left out; by place, those after the last item are. -/
inductive IsRecord (layout : List LayoutField) : Node → Prop
  | named {members : List (List TextPart × Node)} {named : Table String Node}
      (hnamed : named? members = some named)
      (honce : ∀ field ∈ layout, named.keys.count field.name ≤ 1)
      (hfields : ∀ field ∈ layout, field.Admits (named.get? field.name)) :
      IsRecord layout (.object members)
  | placed {items : List Node} (missing : Nat)
      (hfields : List.Forall₂ LayoutField.Admits layout
        (items.map some ++ List.replicate missing none)) :
      IsRecord layout (.array items)

/-- An object whose members have different names, all of which can be read. -/
def HasMembers (node : Node) (named : Table String Node) : Prop :=
  ∃ members, node = .object members ∧ named? members = some named ∧ named.keys.Nodup

def IsText (node : Node) : Prop := ∃ parts, node = .text parts ∧ (textOf? parts).isSome

def IsBoolean (node : Node) : Prop := ∃ b, node = .boolean b

def IsNullOr (P : Node → Prop) (node : Node) : Prop := node = .null ∨ P node

def IsList (P : Node → Prop) (node : Node) : Prop :=
  ∃ items, node = .array items ∧ ∀ item ∈ items, P item

variable {node : Node} {layout : List LayoutField} {α : Type}

theorem fields?_of_named {members : List (List TextPart × Node)} {named : Table String Node}
    {known : List String} (hnamed : named? members = some named)
    (honce : ∀ name ∈ known, named.keys.count name ≤ 1) :
    (object members).fields? known = some (known.map fun name => named.get? name) := by
  have hrepeated : ¬ known.any fun name => 1 < (named.map Prod.fst).count name := by
    simpa [Table.keys] using honce
  have hnamed : members.mapM (fun member => (textOf? member.1).map (·, member.2)) =
    some named := hnamed
  simp only [fields?, hnamed, Option.bind_eq_bind, Option.bind_some]
  rw [if_neg hrepeated]

theorem HasMembers.fields?_eq {named : Table String Node} (h : node.HasMembers named)
    (known : List String) :
    node.fields? known = some (known.map fun name => named.get? name) := by
  obtain ⟨members, rfl, hnamed, hnodup⟩ := h
  exact fields?_of_named hnamed fun name _ => List.nodup_iff_count_le_one.mp hnodup name

theorem isRecord_iff : node.IsRecord layout ↔ ∃ given,
    node.fields? (layout.map (·.name)) = some given ∧
      List.Forall₂ LayoutField.Admits layout given := by
  constructor
  · rintro (@⟨members, named, hnamed, honce, hfields⟩ | @⟨items, missing, hfields⟩)
    · refine ⟨layout.map fun field => named.get? field.name, ?_,
        List.forall₂_map_right_iff.mpr (List.forall₂_same.mpr hfields)⟩
      rw [fields?_of_named hnamed (List.forall_mem_map.mpr honce), List.map_map]
      rfl
    · have hlength := hfields.length_eq
      rw [List.length_append, List.length_map, List.length_replicate] at hlength
      refine ⟨_, ?_, hfields⟩
      simp [fields?, hlength]
  · rintro ⟨given, hgiven, hadmits⟩
    cases node with
    | array items =>
      simp only [fields?] at hgiven
      split at hgiven
      · exact .placed _ (Option.some.inj hgiven ▸ hadmits)
      · cases hgiven
    | object members =>
      simp only [fields?, Option.bind_eq_bind, Option.bind_eq_some_iff] at hgiven
      obtain ⟨named, hnamed, hgiven⟩ := hgiven
      split at hgiven
      · cases hgiven
      next hrepeated =>
        obtain rfl := Option.some.inj hgiven
        rw [List.map_map, List.forall₂_map_right_iff, List.forall₂_same] at hadmits
        exact .named hnamed (by simpa [Table.keys] using hrepeated) hadmits
    | _ => cases hgiven

/-! ### What can be read -/

theorem exists_text? : (∃ s, node.text? = some s) ↔ node.IsText := by
  cases node <;> simp [text?, IsText, Option.isSome_iff_exists]

theorem exists_boolean? : (∃ b, node.boolean? = some b) ↔ node.IsBoolean := by
  cases node <;> simp [boolean?, IsBoolean]

variable {value? : Node → Option α} {P : Node → Prop}

theorem exists_optional? (hvalue : ∀ node, (∃ v, value? node = some v) ↔ P node) :
    (∃ v, node.optional? value? = some v) ↔ node.IsNullOr P := by
  cases node <;> simp [optional?, IsNullOr, ← hvalue]

theorem exists_list? (hitem : ∀ node, (∃ v, value? node = some v) ↔ P node) :
    (∃ vs, node.list? value? = some vs) ↔ node.IsList P := by
  cases node with
  | array items =>
    simp only [list?, IsList, Node.array.injEq, exists_eq_left']
    induction items with
    | nil => simp
    | cons item items ih =>
      rw [List.forall_mem_cons, ← ih, ← hitem]
      simp only [List.mapM_cons, Option.bind_eq_bind, Option.bind_eq_some_iff]
      constructor
      · rintro ⟨_, v, hv, vs, hvs, -⟩
        exact ⟨⟨v, hv⟩, vs, hvs⟩
      · rintro ⟨⟨v, hv⟩, vs, hvs⟩
        exact ⟨_, v, hv, vs, hvs, rfl⟩
  | _ => simp [list?, IsList]

theorem exists_orDefault? {default : α} {name : String} {given : Option Node}
    (hvalue : ∀ node, (∃ v, value? node = some v) ↔ P node) :
    (∃ v, orDefault? default value? given = some v) ↔
      LayoutField.Admits ⟨name, true, P⟩ given := by
  cases given <;> simp [orDefault?, LayoutField.Admits, hvalue]

end Node

theorem exists_bind {α β : Type} {x : Option α} {f : α → Option β} :
    (∃ b, x.bind f = some b) ↔ ∃ a, x = some a ∧ ∃ b, f a = some b := by
  cases x <;> simp

namespace LayoutField

theorem admits_required {name : String} {Fits : Node → Prop} {given : Option Node} :
    Admits ⟨name, false, Fits⟩ given ↔ ∃ node, given = some node ∧ Fits node := by
  cases given <;> simp [Admits]

def optionalText (name : String) : LayoutField := ⟨name, true, Node.IsNullOr Node.IsText⟩

theorem exists_optionalText? {name : String} {given : Option Node} :
    (∃ text, Node.orDefault? none (Node.optional? Node.text?) given = some text) ↔
      (optionalText name).Admits given :=
  Node.exists_orDefault? fun _ => Node.exists_optional? fun _ => Node.exists_text?

/-- Reading the fields one after the other can only fail at one that the layout does not admit. -/
theorem exists_bind_iff {α β : Type} {field : LayoutField} {layout : List LayoutField}
    {first : Option Node} {given : List (Option Node)} {value : Option α} {rest : α → Option β}
    (hvalue : (∃ a, value = some a) ↔ field.Admits first)
    (hrest : ∀ a, (∃ b, rest a = some b) ↔ List.Forall₂ Admits layout given) :
    (∃ b, value.bind rest = some b) ↔
      List.Forall₂ Admits (field :: layout) (first :: given) := by
  rw [List.forall₂_cons, ← hvalue]
  cases value <;> simp [hrest]

theorem exists_some_iff {β : Type} (b : β) :
    (∃ c, some b = some c) ↔ List.Forall₂ Admits [] [] := by
  simp

end LayoutField

end Fieldwise.Json
