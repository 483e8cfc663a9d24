import Fieldwise.Proofs.Service.Frame
import Mathlib.Data.Finset.Card

/-!
What is remembered of the types of tables: the answers for the tables that have been asked for, as
far as there were any. Every question comes to the same as if nothing were remembered, but the
resolver is only asked once for each table that it knows, and every time for one that it does not.
-/

namespace Fieldwise

/-- What an engine is asked about a table. -/
inductive Question
  | typeName (table : String)
  | newObject (entity : Entity)

def Question.table : Question → String
  | typeName table => table
  | newObject entity => entity.table

namespace World

/-- The world without what is remembered of tables. -/
def forgetting (w : World) : World := { w with tableTypes := [], lookups := 0 }

/-- How often types are looked up for these tables: once for each table that has one, and every time
for one that has none. -/
def lookupsFor (answers : String → Option String) (tables : List String) : Nat :=
  {table ∈ tables.toFinset | (answers table).isSome}.card +
    tables.countP fun table => (answers table).isNone

/-- The world remembers what has been answered for these tables. -/
structure Remembers (answers : String → Option String) (tables : List String) (w : World) :
    Prop where
  tableTypes : ∀ table, w.tableTypes.get? table = if table ∈ tables then answers table else none
  lookups : w.lookups = lookupsFor answers tables

theorem lookupsFor_concat (answers : String → Option String) (tables : List String)
    (table : String) : lookupsFor answers (tables ++ [table]) =
      lookupsFor answers tables + if table ∈ tables ∧ (answers table).isSome then 0 else 1 := by
  have hset : (tables ++ [table]).toFinset = insert table tables.toFinset := by
    rw [List.toFinset_append, Finset.union_comm]
    rfl
  unfold lookupsFor
  rw [hset, Finset.filter_insert, List.countP_append, List.countP_singleton]
  cases hanswer : answers table with
  | none => simp [Nat.add_assoc]
  | some name =>
    by_cases hmem : table ∈ tables
    · have hcounted : table ∈ tables.toFinset.filter fun table => (answers table).isSome := by
        simp [hmem, hanswer]
      simp [hmem, Finset.insert_eq_of_mem hcounted]
    · simp [hmem, Nat.add_right_comm]

end World

/-- What an action comes to, and the world that it leaves, but for what is remembered of tables. -/
def outcome {α : Type} (x : Action α) (w : World) : Except Failure α × World :=
  match x w with
  | .ok a w' => (.ok a, w'.forgetting)
  | .error f w' => (.error f, w'.forgetting)

theorem outcome_bind {α β : Type} {x : Action α} {k : α → Action β} {w w' : World}
    (hx : outcome x w = outcome x w')
    (hk : ∀ a w₁ w₁', w₁.forgetting = w₁'.forgetting → outcome (k a) w₁ = outcome (k a) w₁') :
    outcome (x >>= k) w = outcome (x >>= k) w' := by
  unfold outcome at hx ⊢
  simp only [bind_apply]
  cases hw : x w <;> cases hw' : x w' <;> simp only [hw, hw', Prod.mk.injEq, reduceCtorEq,
    Except.ok.injEq, Except.error.injEq, false_and] at hx ⊢
  · obtain ⟨rfl, hworld⟩ := hx
    exact hk _ _ _ hworld
  · exact hx

theorem outcome_pure {α : Type} (a : α) {w w' : World} (h : w.forgetting = w'.forgetting) :
    outcome (pure a) w = outcome (pure a) w' :=
  congrArg (Prod.mk (Except.ok a)) h

theorem outcome_fail {α : Type} (error : Error) {w w' : World}
    (h : w.forgetting = w'.forgetting) :
    outcome (Action.fail error : Action α) w = outcome (Action.fail error) w' :=
  congrArg (Prod.mk (Except.error (Failure.error error))) h

theorem outcome_addObject (o : BusinessObject) {w w' : World}
    (h : w.forgetting = w'.forgetting) :
    outcome (Action.addObject o) w = outcome (Action.addObject o) w' := by
  simp only [World.forgetting, World.mk.injEq] at h
  obtain ⟨hheap, hstore, hbindings, -, -, hissued⟩ := h
  simp only [outcome, Action.addObject, World.forgetting, hheap, hstore, hbindings, hissued]

namespace Engine

def ask (e : Engine) : Question → Action (String ⊕ Handle)
  | .typeName table => .inl <$> e.typeOfTable table
  | .newObject entity => .inr <$> e.instantiate entity

/-- The worlds in which the questions have been asked, from one in which nothing is remembered. In
between anything may happen that leaves alone what is remembered. -/
inductive Asked (e : Engine) : List Question → World → Prop
  | nothing {w : World} (htypes : w.tableTypes = []) (hlookups : w.lookups = 0) : Asked e [] w
  | question {questions : List Question} {w : World} (q : Question) (h : Asked e questions w) :
    Asked e (questions ++ [q]) (after (e.ask q) w)
  | other {questions : List Question} {w w' : World} (h : Asked e questions w)
    (htypes : w'.tableTypes = w.tableTypes) (hlookups : w'.lookups = w.lookups) :
    Asked e questions w'

/-- The world after the questions have been asked one after the other. -/
def askAll (e : Engine) (w : World) (questions : List Question) : World :=
  questions.foldl (fun w q => after (e.ask q) w) w

theorem Asked.askAll {e : Engine} {questions : List Question} {w : World}
    (h : e.Asked questions w) (more : List Question) :
    e.Asked (questions ++ more) (e.askAll w more) := by
  induction more generalizing questions w with
  | nil => rwa [List.append_nil]
  | cons q rest ih =>
    rw [List.append_cons]
    exact ih (h.question q)

variable {e : Engine} {answers : String → Option String} {tables : List String} {w w' : World}

/-! ### What is remembered -/

section

variable (hanswers : ∀ table, e.tableTypes table = .ok (answers table))
include hanswers

theorem get?_after_typeOfTable (table other : String) (w : World) :
    (after (e.typeOfTable table) w).tableTypes.get? other =
      if other = table then (w.tableTypes.get? table).or (answers table)
      else w.tableTypes.get? other := by
  unfold typeOfTable after
  cases hknown : w.tableTypes.get? table with
  | some name => by_cases hother : other = table <;> simp [bind_apply, hknown, hother]
  | none =>
    cases hanswer : answers table with
    | none =>
      by_cases hother : other = table <;> simp [bind_apply, hknown, hanswers, hanswer, hother]
    | some name =>
      by_cases hother : other = table
      · simp [bind_apply, map_apply, hknown, hanswers, hanswer, hother]
      · simp [bind_apply, map_apply, hknown, hanswers, hanswer, hother,
          Table.get?_put_of_ne hother]

theorem lookups_after_typeOfTable (table : String) (w : World) :
    (after (e.typeOfTable table) w).lookups =
      w.lookups + if (w.tableTypes.get? table).isSome then 0 else 1 := by
  unfold typeOfTable after
  cases hknown : w.tableTypes.get? table with
  | some name => simp [bind_apply, hknown]
  | none =>
    cases hanswer : answers table <;> simp [bind_apply, map_apply, hknown, hanswers, hanswer]

end

theorem memory_ask (e : Engine) (q : Question) (w : World) :
    (after (e.ask q) w).tableTypes = (after (e.typeOfTable q.table) w).tableTypes ∧
      (after (e.ask q) w).lookups = (after (e.typeOfTable q.table) w).lookups := by
  cases q with
  | typeName table => simp [ask, after_map, Question.table]
  | newObject entity =>
    simp only [ask, after_map, Question.table, instantiate, after_bind]
    cases htype : e.typeOfTable entity.table w with
    | error f w' => simp only [after_of_error htype, and_self]
    | ok name w' =>
      simp only [after_of_ok htype]
      cases e.registry.type? name <;> exact ⟨rfl, rfl⟩

theorem remembers_typeOfTable (hanswers : ∀ table, e.tableTypes table = .ok (answers table))
    (h : w.Remembers answers tables) (table : String) :
    (after (e.typeOfTable table) w).Remembers answers (tables ++ [table]) := by
  constructor
  · intro other
    rw [get?_after_typeOfTable hanswers, h.tableTypes, h.tableTypes]
    by_cases hother : other = table
    · subst hother
      by_cases hmem : other ∈ tables <;> simp [hmem]
    · simp [hother]
  · rw [lookups_after_typeOfTable hanswers, h.tableTypes, h.lookups, World.lookupsFor_concat]
    by_cases hmem : table ∈ tables <;> simp [hmem]

theorem Asked.remembers (hanswers : ∀ table, e.tableTypes table = .ok (answers table))
    {questions : List Question} (h : e.Asked questions w) :
    w.Remembers answers (questions.map Question.table) := by
  induction h with
  | nothing htypes hlookups =>
    exact ⟨fun table => by simp [htypes], by simp [hlookups, World.lookupsFor]⟩
  | question q _ ih =>
    rw [List.map_append, List.map_singleton]
    obtain ⟨htypes, hlookups⟩ := e.memory_ask q _
    have hafter := remembers_typeOfTable hanswers ih q.table
    exact ⟨fun table => htypes ▸ hafter.tableTypes table, hlookups ▸ hafter.lookups⟩
  | other _ htypes hlookups ih =>
    exact ⟨fun table => htypes ▸ ih.tableTypes table, hlookups ▸ ih.lookups⟩

/-! ### What it comes to -/

theorem Learns.forgetting_eq (h : e.Learns w w') : w'.forgetting = w.forgetting := by
  obtain ⟨⟨hstore, hbindings, hissued, -, -⟩, hheap⟩ := h
  simp only [World.forgetting, hstore, hbindings, hissued, hheap]

theorem outcome_typeOfTable {table : String} (hnow : e.typeNow w table = e.typeNow w' table)
    (hworld : w.forgetting = w'.forgetting) :
    outcome (e.typeOfTable table) w = outcome (e.typeOfTable table) w' := by
  obtain ⟨w₁, hlearns, happly⟩ := e.answers_typeOfTable w table
  obtain ⟨w₁', hlearns', happly'⟩ := e.answers_typeOfTable w' table
  unfold outcome
  rw [happly, happly', hnow]
  cases e.typeNow w' table <;> simp only [hlearns.forgetting_eq, hlearns'.forgetting_eq, hworld]

theorem outcome_ask {q : Question} (hnow : e.typeNow w q.table = e.typeNow w' q.table)
    (hworld : w.forgetting = w'.forgetting) : outcome (e.ask q) w = outcome (e.ask q) w' := by
  have htype := outcome_typeOfTable hnow hworld
  cases q with
  | typeName table =>
    rw [ask, map_eq_pure_bind]
    exact outcome_bind htype fun name _ _ => outcome_pure _
  | newObject entity =>
    rw [ask, map_eq_pure_bind]
    -- The name of the type is remembered before it turns out that nothing can be made.
    have hnew : outcome (e.instantiate entity) w = outcome (e.instantiate entity) w' :=
      outcome_bind htype fun name w₁ w₁' hworld => by
        split
        · exact outcome_addObject _ hworld
        · exact outcome_fail _ hworld
    exact outcome_bind hnew fun h _ _ => outcome_pure _

/-- However many questions have been asked, and with whatever answers, the next one comes to the
same as it would with nothing remembered; and types have been looked up once for each different
table that has one, and for every question about a table that has none. -/
theorem asked_remembered (hanswers : ∀ table, e.tableTypes table = .ok (answers table))
    {questions : List Question} (h : e.Asked questions w) :
    (∀ q, outcome (e.ask q) w = outcome (e.ask q) { w with tableTypes := [] }) ∧
    w.lookups =
      {table ∈ (questions.map Question.table).toFinset | (answers table).isSome}.card +
        (questions.map Question.table).countP fun table => (answers table).isNone := by
  have hremembers := h.remembers hanswers
  refine ⟨fun q => outcome_ask ?_ rfl, hremembers.lookups⟩
  simp only [typeNow, hremembers.tableTypes, hanswers, Table.get?_nil]
  by_cases hasked : q.table ∈ questions.map Question.table
  · cases hanswer : answers q.table <;> simp [hasked]
  · simp [hasked]

end Engine

namespace Sample

/-- An entity of a table whose type is known by name only. -/
def invoiceEntity : Entity where
  id := "INV"
  name := "Invoice"
  table := "318"

/-- The sample engine, with a resolver that knows one more table. -/
def ledger : Engine := { engine with
  tableTypes := fun table =>
    .ok (if table = "318" then some "Invoice" else registry.typeName? table) }

def inquiries : List Question :=
  [.newObject productEntity, .typeName "999", .newObject invoiceEntity, .typeName "208",
    .newObject invoiceEntity, .typeName "999"]

end Sample

namespace Engine

open Sample

/-- Invoices cannot be made, but the name of their type is looked up once only. -/
theorem inquiries_remembered :
    ledger.Asked inquiries (ledger.askAll World.empty inquiries) ∧
    (ledger.askAll World.empty inquiries).lookups = 4 ∧
    outcome (ledger.ask (.newObject invoiceEntity)) (ledger.askAll World.empty inquiries) =
      outcome (ledger.ask (.newObject invoiceEntity))
        { ledger.askAll World.empty inquiries with tableTypes := [] } := by
  have hanswers : ∀ table, ledger.tableTypes table =
      .ok (if table = "318" then some "Invoice" else Sample.registry.typeName? table) :=
    fun table => rfl
  have hstart : ledger.Asked [] World.empty := .nothing rfl rfl
  have hasked : ledger.Asked inquiries (ledger.askAll World.empty inquiries) :=
    hstart.askAll inquiries
  obtain ⟨htransparent, hlookups⟩ := asked_remembered hanswers hasked
  exact ⟨hasked, hlookups.trans (by decide), htransparent _⟩

end Engine

end Fieldwise
