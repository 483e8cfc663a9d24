import Fieldwise.Json.Reader
import Fieldwise.Proofs.Json.PathReading
import Mathlib.Data.List.Forall2

/-!
Positions in JSON documents. A position is told by the names and indexes on the way to it, and a
path finds a part exactly if its steps lead there. With a `$` and a pair of brackets for each step
every position can be written down, whatever characters its names are made of, as long as there is a
quote that is not one of them; and what is written leads back to it.
-/

namespace Fieldwise.Json

/-- The way from a document to one of its parts. -/
inductive Leads : Json → List Step → Json → Prop
  | here (v : Json) : Leads v [] v
  | member {fields : List (String × Json)} {name : String} {v part : Json} {steps : List Step}
      (hmem : (name, v) ∈ fields) (hrest : Leads v steps part) :
      Leads (.object fields) (.key name :: steps) part
  | item {items : List Json} {i : Nat} {v part : Json} {steps : List Step}
      (hitem : items[i]? = some v) (hrest : Leads v steps part) :
      Leads (.array items) (.index i :: steps) part

/-- No object of a document has two members of one name. -/
def NamesDistinct (document : Json) : Prop :=
  ∀ steps fields, Leads document steps (.object fields) → (Table.keys fields).Nodup

section

variable {document v part : Json} {steps : List Step} {fields : List (String × Json)}
  {items : List Json}

theorem leads_nil_iff : Leads document [] part ↔ document = part := by
  constructor
  · rintro ⟨⟩
    rfl
  · rintro rfl
    exact .here document

theorem NamesDistinct.nodup (h : NamesDistinct (.object fields)) : (Table.keys fields).Nodup :=
  h [] fields (.here _)

theorem NamesDistinct.member (h : NamesDistinct (.object fields)) {name : String}
    (hmem : (name, v) ∈ fields) : v.NamesDistinct :=
  fun steps inner hinner => h (.key name :: steps) inner (.member hmem hinner)

theorem NamesDistinct.item (h : NamesDistinct (.array items)) {i : Nat}
    (hitem : items[i]? = some v) : v.NamesDistinct :=
  fun steps inner hinner => h (.index i :: steps) inner (.item hitem hinner)

/-! ### Documents that were read -/

theorem namesDistinct_object (hnodup : (Table.keys fields).Nodup)
    (hmembers : ∀ entry ∈ fields, entry.2.NamesDistinct) : NamesDistinct (.object fields) := by
  rintro (_ | ⟨step, steps⟩) inner hinner
  · obtain rfl := Json.object.inj (leads_nil_iff.mp hinner)
    exact hnodup
  · cases hinner with
    | member hmem hrest => exact hmembers _ hmem _ _ hrest

theorem namesDistinct_array (hitems : ∀ v ∈ items, v.NamesDistinct) :
    NamesDistinct (.array items) := by
  rintro (_ | ⟨step, steps⟩) inner hinner
  · cases leads_nil_iff.mp hinner
  · cases hinner with
    | item hitem hrest => exact hitems _ (List.mem_of_getElem? hitem) _ _ hrest

theorem mem_itemsToJson? {depth : Nat} {nodes : List Node} (h : itemsToJson? depth nodes = some items)
    (hv : v ∈ items) : ∃ node ∈ nodes, node.toJson? depth = some v := by
  induction nodes generalizing items with
  | nil =>
    obtain rfl : [] = items := by simpa [itemsToJson?] using h
    cases hv
  | cons node rest ih =>
    simp only [itemsToJson?, Option.bind_eq_bind, Option.bind_eq_some_iff] at h
    obtain ⟨w, hw, others, hothers, h⟩ := h
    obtain rfl : w :: others = items := Option.some.inj h
    rcases List.mem_cons.mp hv with rfl | hv
    · exact ⟨node, List.mem_cons_self, hw⟩
    · obtain ⟨n, hn, hnv⟩ := ih hothers hv
      exact ⟨n, List.mem_cons_of_mem _ hn, hnv⟩

theorem mem_membersToJson? {depth : Nat} {members : List (List TextPart × Node)}
    (h : membersToJson? depth members = some fields) {entry : String × Json}
    (hentry : entry ∈ fields) : ∃ member ∈ members, member.2.toJson? depth = some entry.2 := by
  induction members generalizing fields with
  | nil =>
    obtain rfl : [] = fields := by simpa [membersToJson?] using h
    cases hentry
  | cons member rest ih =>
    simp only [membersToJson?, Option.bind_eq_bind, Option.bind_eq_some_iff] at h
    obtain ⟨name, -, w, hw, others, hothers, h⟩ := h
    obtain rfl : (name, w) :: others = fields := Option.some.inj h
    rcases List.mem_cons.mp hentry with rfl | hentry
    · exact ⟨member, List.mem_cons_self, hw⟩
    · obtain ⟨m, hm, hmv⟩ := ih hothers hentry
      exact ⟨m, List.mem_cons_of_mem _ hm, hmv⟩

theorem namesDistinct_of_leaf (hobject : ∀ fields, v ≠ .object fields)
    (harray : ∀ items, v ≠ .array items) : v.NamesDistinct := by
  intro steps fields hfields
  cases hfields with
  | here => exact absurd rfl (hobject fields)
  | member => exact absurd rfl (hobject _)
  | item => exact absurd rfl (harray _)

theorem namesDistinct_of_toJson? {depth : Nat} {node : Node} (h : node.toJson? depth = some v) :
    v.NamesDistinct := by
  induction depth generalizing node v with
  | zero =>
    apply namesDistinct_of_leaf
    all_goals
      rintro parts rfl
      cases node <;> simp [Node.toJson?] at h
  | succ depth ih =>
    cases node with
    | array nodes =>
      rw [Node.toJson?, Option.map_eq_some_iff] at h
      obtain ⟨items, hitems, rfl⟩ := h
      apply namesDistinct_array
      intro v hv
      obtain ⟨node, -, hnode⟩ := mem_itemsToJson? hitems hv
      exact ih hnode
    | object members =>
      rw [Node.toJson?, Option.map_eq_some_iff] at h
      obtain ⟨fields, hfields, rfl⟩ := h
      apply namesDistinct_object (Table.nodup_keys_ofList fields)
      intro entry hentry
      obtain ⟨member, -, hmember⟩ :=
        mem_membersToJson? hfields (Table.mem_of_mem_ofList hentry)
      exact ih hmember
    | null | boolean | number | text =>
      apply namesDistinct_of_leaf
      all_goals
        rintro parts rfl
        simp [Node.toJson?] at h

theorem namesDistinct_of_ofText? {s : String} (h : ofText? s = some v) : v.NamesDistinct := by
  obtain ⟨node, -, hnode⟩ := Option.bind_eq_some_iff.mp h
  exact namesDistinct_of_toJson? hnode

/-! ### What a path finds -/

theorem follow?_key_eq_some {name : String} : v.follow? (.key name) = some part ↔
    ∃ fields, v = .object fields ∧ Table.get? name fields = some part := by
  cases v <;> simp [follow?]

theorem follow?_index_eq_some {i : Nat} : v.follow? (.index i) = some part ↔
    ∃ items, v = .array items ∧ items[i]? = some part := by
  cases v <;> simp [follow?]

/-- Where names are distinct, the steps are followed to where they lead. -/
theorem foldlM_follow?_eq_some (hdistinct : document.NamesDistinct) :
    steps.foldlM follow? document = some part ↔ Leads document steps part := by
  induction steps generalizing document with
  | nil => simp [leads_nil_iff]
  | cons step steps ih =>
    rw [List.foldlM_cons, Option.bind_eq_bind, Option.bind_eq_some_iff]
    cases step with
    | key name =>
      constructor
      · rintro ⟨v, hfollow, hrest⟩
        obtain ⟨fields, rfl, hget⟩ := follow?_key_eq_some.mp hfollow
        have hmem : (name, v) ∈ fields := Table.mem_of_get? hget
        exact .member hmem ((ih (hdistinct.member hmem)).mp hrest)
      · rintro (_ | ⟨hmem, hrest⟩)
        refine ⟨_, follow?_key_eq_some.mpr ⟨_, rfl, ?_⟩, (ih (hdistinct.member hmem)).mpr hrest⟩
        exact (Table.get?_eq_some_iff hdistinct.nodup).mpr hmem
    | index i =>
      constructor
      · rintro ⟨v, hfollow, hrest⟩
        obtain ⟨items, rfl, hitem⟩ := follow?_index_eq_some.mp hfollow
        exact .item hitem ((ih (hdistinct.item hitem)).mp hrest)
      · rintro (_ | _ | ⟨hitem, hrest⟩)
        exact ⟨_, follow?_index_eq_some.mpr ⟨_, rfl, hitem⟩, (ih (hdistinct.item hitem)).mpr hrest⟩

end

/-! ### Steps between brackets -/

/-- Not both quotes are among the characters of a name, and an index fits 64 bits. -/
def Step.FitsBrackets : Step → Prop
  | .key name => '\x27' ∉ name.toList ∨ '"' ∉ name.toList
  | .index i => i < 2 ^ 64

/-- A name stands in a quote that it lacks, an index as a numeral. -/
inductive Bracketed : Step → List Char → Prop
  | key {name : String} {quote : Char} (hquote : quote = '\x27' ∨ quote = '"')
      (hlacks : quote ∉ name.toList) :
      Bracketed (.key name) ('[' :: quote :: (name.toList ++ [quote, ']']))
  | index (i : Nat) : Bracketed (.index i) ('[' :: (Text.numeral i ++ [']']))

section

variable {step : Step} {cs : List Char} {steps : List Step} {pieces : List (List Char)}

theorem Step.FitsBrackets.exists_bracketed (h : step.FitsBrackets) : ∃ cs, Bracketed step cs := by
  cases step with
  | key name =>
    rcases h with hlacks | hlacks
    · exact ⟨_, .key (.inl rfl) hlacks⟩
    · exact ⟨_, .key (.inr rfl) hlacks⟩
  | index i => exact ⟨_, .index i⟩

theorem Bracketed.exists_written (h : Bracketed step cs) (hfits : step.FitsBrackets) :
    ∃ w : WrittenStep, w.chars = cs ∧ w.step = step := by
  cases h with
  | @key name quote hquote hlacks =>
    refine ⟨.quoted ⟨quote, name.toList, hquote, hlacks⟩, rfl, ?_⟩
    simp [WrittenStep.step]
  | index i =>
    have hsmall : Text.numeralValue (Text.numeral i) < 2 ^ 64 := by
      rw [Text.numeralValue_numeral]
      exact hfits
    refine ⟨.index ⟨[], false, Text.numeral i, [], by simp, Text.numeral_ne_nil i,
      fun c hc => Text.isDigit_of_mem_numeral hc, hsmall, by simp⟩, ?_, ?_⟩
    · simp [WrittenStep.chars, WrittenIndex.chars, WrittenIndex.numeral, plusSign]
    · simp [WrittenStep.step, WrittenIndex.value]

theorem exists_written_of_bracketed (h : List.Forall₂ Bracketed steps pieces)
    (hfits : ∀ step ∈ steps, step.FitsBrackets) :
    ∃ written, charsOf written = pieces.flatten ∧ written.map WrittenStep.step = steps := by
  induction h with
  | nil => exact ⟨[], rfl, rfl⟩
  | cons hstep hsteps ih =>
    obtain ⟨hfit, hrest⟩ := List.forall_mem_cons.mp hfits
    obtain ⟨written, hchars, rfl⟩ := ih hrest
    obtain ⟨w, rfl, rfl⟩ := hstep.exists_written hfit
    exact ⟨w :: written, by rw [charsOf_cons, hchars, List.flatten_cons], rfl⟩

theorem exists_pieces (hfits : ∀ step ∈ steps, step.FitsBrackets) :
    ∃ pieces, List.Forall₂ Bracketed steps pieces := by
  induction steps with
  | nil => exact ⟨[], .nil⟩
  | cons step steps ih =>
    obtain ⟨hfit, hrest⟩ := List.forall_mem_cons.mp hfits
    obtain ⟨cs, hcs⟩ := hfit.exists_bracketed
    obtain ⟨pieces, hpieces⟩ := ih hrest
    exact ⟨cs :: pieces, .cons hcs hpieces⟩

end

theorem Path.ofText_chars (p : WrittenPath) : Path.ofText (String.ofList p.chars) = .ok p.path := by
  have hstands : Text.StandsIn p.chars p.chars := ⟨[], [], by simp, by simp, by simp⟩
  have htrim : Text.trim (String.ofList p.chars) = String.ofList p.chars := by
    rw [Text.trim, String.toList_ofList, p.tight_chars.trimChars_eq hstands]
  rw [Path.ofText_eq_ok, htrim, String.toList_ofList]
  exact ⟨p.steps, stepsOfChars_eq_ok.mpr ⟨p, rfl, rfl⟩, rfl⟩

/-- Every position in a document has a path that is written with brackets, if only no name on the
way has both quotes in it; each such text is read as the steps to the position, and finds the part
there. And any path finds a part of a document exactly if its steps lead to it. -/
theorem Path.find?_at_position :
    (∀ document : Json, document.NamesDistinct → ∀ steps part, Leads document steps part →
      (∀ step ∈ steps, step.FitsBrackets) →
      (∃ pieces, List.Forall₂ Bracketed steps pieces) ∧
      ∀ pieces, List.Forall₂ Bracketed steps pieces →
        ∃ path, Path.ofText (String.ofList ('$' :: pieces.flatten)) = .ok path ∧
          path.steps = steps ∧ path.find? document = some part) ∧
    ∀ s path, Path.ofText s = .ok path → ∀ document : Json, document.NamesDistinct →
      ∀ part, path.find? document = some part ↔ Leads document path.steps part := by
  refine ⟨fun document hdistinct steps part hleads hfits => ⟨exists_pieces hfits, ?_⟩,
    fun s path _ document hdistinct part => foldlM_follow?_eq_some hdistinct⟩
  intro pieces hpieces
  obtain ⟨written, hchars, rfl⟩ := exists_written_of_bracketed hpieces hfits
  have hread := Path.ofText_chars ⟨.root, written⟩
  have htext : (⟨.root, written⟩ : WrittenPath).chars = '$' :: pieces.flatten := by
    rw [← hchars]
    rfl
  rw [htext] at hread
  exact ⟨_, hread, rfl, (foldlM_follow?_eq_some hdistinct).mpr hleads⟩

/-- Names with brackets and either kind of quote in them. -/
def quotesDocument : Json :=
  .object [("", .null), ("a]['b", .array [.null, .object [("\"", .text "part")]])]

def quotesPosition : List Step := [.key "a]['b", .index 1, .key "\""]

theorem quotesDocument_distinct : quotesDocument.NamesDistinct := by
  have hleaf : NamesDistinct .null := namesDistinct_of_leaf (by simp) (by simp)
  have htext : NamesDistinct (.text "part") := namesDistinct_of_leaf (by simp) (by simp)
  have hinner : NamesDistinct (.object [("\"", .text "part")]) :=
    namesDistinct_object (by decide) (by simpa using htext)
  have hitems : NamesDistinct (.array [.null, .object [("\"", .text "part")]]) :=
    namesDistinct_array (by simpa using ⟨hleaf, hinner⟩)
  exact namesDistinct_object (by decide) (by simpa using ⟨hleaf, hitems⟩)

theorem quotesPosition_leads : Leads quotesDocument quotesPosition (.text "part") := by
  apply Leads.member (List.mem_cons_of_mem _ List.mem_cons_self)
  apply Leads.item (i := 1) rfl
  apply Leads.member List.mem_cons_self
  exact .here _

def quotesPieces : List (List Char) :=
  [['[', '"', 'a', ']', '[', '\x27', 'b', '"', ']'], ['[', '1', ']'],
    ['[', '\x27', '"', '\x27', ']']]

theorem quotesPieces_bracketed : List.Forall₂ Bracketed quotesPosition quotesPieces :=
  .cons (.key (.inr rfl) (by decide)) (.cons (.index 1) (.cons (.key (.inl rfl) (by decide)) .nil))

theorem Path.find?_at_quotesPosition :
    quotesDocument.NamesDistinct ∧ Leads quotesDocument quotesPosition (.text "part") ∧
    (∀ step ∈ quotesPosition, step.FitsBrackets) ∧
    ∃ path, Path.ofText "$[\"a]['b\"][1]['\"']" = .ok path ∧ path.steps = quotesPosition ∧
      path.find? quotesDocument = some (.text "part") ∧
      ∀ part, path.find? quotesDocument = some part ↔ Leads quotesDocument path.steps part := by
  have hfits : ∀ step ∈ quotesPosition, step.FitsBrackets := by
    simp [quotesPosition, Step.FitsBrackets]
  have htext : String.ofList ('$' :: quotesPieces.flatten) = "$[\"a]['b\"][1]['\"']" := by
    decide
  obtain ⟨-, hread⟩ := Path.find?_at_position.1 quotesDocument quotesDocument_distinct
    quotesPosition (.text "part") quotesPosition_leads hfits
  obtain ⟨path, hpath, hsteps, hfind⟩ := hread quotesPieces quotesPieces_bracketed
  rw [htext] at hpath
  exact ⟨quotesDocument_distinct, quotesPosition_leads, hfits, path, hpath, hsteps, hfind,
    Path.find?_at_position.2 _ path hpath quotesDocument quotesDocument_distinct⟩

end Fieldwise.Json
