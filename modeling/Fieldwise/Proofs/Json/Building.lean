import Fieldwise.Json.Node
import Fieldwise.Proofs.Json.Scanning

/-!
The document that a JSON value is written as, and that it is what is built from the tokens of the
value: the builder hands it to the innermost open array or object, wherever a value may begin.
-/

namespace Fieldwise.Json

mutual

def node : Json → Node
  | null => .null
  | boolean b => .boolean b
  | number n => .number n.numeral
  | text s => .text (textParts s)
  | array items => .array (itemNodes items)
  | object fields => .object (fieldNodes fields)

def itemNodes : List Json → List Node
  | [] => []
  | v :: rest => v.node :: itemNodes rest

def fieldNodes : List (String × Json) → List (List TextPart × Node)
  | [] => []
  | (name, v) :: rest => (textParts name, v.node) :: fieldNodes rest

end

@[simp] theorem itemNodes_eq (items : List Json) : itemNodes items = items.map node := by
  induction items with
  | nil => rfl
  | cons v rest ih => simp [itemNodes, ih]

@[simp] theorem fieldNodes_eq (fields : List (String × Json)) :
    fieldNodes fields = fields.map fun field => (textParts field.1, field.2.node) := by
  induction fields with
  | nil => rfl
  | cons field rest ih => simp [fieldNodes, ih]

namespace Builder

/-- The document that the rest of the tokens finish. -/
def build (b : Builder) (tokens : List Token) : Option Node := do
  (← tokens.foldlM step b).finish?

theorem build_of_step {b b' : Builder} {t : Token} (h : b.step t = some b')
    (tokens : List Token) : b.build (t :: tokens) = b'.build tokens := by
  simp [build, h]

/-- A value may begin here; when it is complete, it goes to the innermost of the frames. -/
def AwaitsValue (b : Builder) (frames : List Frame) : Prop :=
  ∀ t, t ≠ .closing .array → b.step t = beginValue? frames t

theorem awaitsValue_value (frames : List Frame) : AwaitsValue ⟨frames, .value⟩ frames :=
  fun _ _ => rfl

theorem awaitsValue_firstItem (frames : List Frame) :
    AwaitsValue ⟨frames, .firstItem⟩ (.array [] :: frames) := by
  intro t ht
  cases t with
  | closing b =>
    cases b with
    | array => exact absurd rfl ht
    | object => rfl
  | _ => rfl

mutual

theorem build_tokens (v : Json) {b : Builder} {frames : List Frame} (hb : b.AwaitsValue frames)
    (rest : List Token) :
    b.build (v.tokens ++ rest) = (complete v.node frames).build rest := by
  match v with
  | .null => exact build_of_step (hb .null (by simp)) rest
  | .boolean x => exact build_of_step (hb (.boolean x) (by simp)) rest
  | .number n => exact build_of_step (hb (.number n.numeral) (by simp)) rest
  | .text s => exact build_of_step (hb (.text (textParts s)) (by simp)) rest
  | .array items =>
    have hopen := hb (.opening .array) (by simp)
    rw [tokens, List.cons_append, List.cons_append, List.append_assoc, build_of_step hopen]
    -- In place of the first item the array may end.
    cases items with
    | nil => exact build_of_step (b := ⟨frames, .firstItem⟩) rfl rest
    | cons v items =>
      exact build_itemTokens (v :: items) (by simp) (awaitsValue_firstItem frames) rest
  | .object fields =>
    have hopen := hb (.opening .object) (by simp)
    rw [tokens, List.cons_append, List.cons_append, List.append_assoc, build_of_step hopen]
    cases fields with
    | nil => exact build_of_step (b := ⟨frames, .name [] true⟩) rfl rest
    | cons field fields => exact build_fieldTokens (field :: fields) (by simp) frames [] true rest

theorem build_itemTokens (items : List Json) (hne : items ≠ []) {b : Builder}
    {done : List Node} {frames : List Frame} (hb : b.AwaitsValue (.array done :: frames))
    (rest : List Token) :
    b.build (itemTokens items ++ ([.closing .array] ++ rest)) =
      (complete (.array (done.reverse ++ itemNodes items)) frames).build rest := by
  match items with
  | [] => exact absurd rfl hne
  | [v] =>
    have hclose : step ⟨frames, .afterItem (v.node :: done)⟩ (.closing .array) =
        some (complete (.array (v.node :: done).reverse) frames) := rfl
    rw [itemTokens, build_tokens v hb]
    refine (build_of_step hclose rest).trans ?_
    simp [itemNodes]
  | v :: w :: items =>
    have hcomma : step ⟨frames, .afterItem (v.node :: done)⟩ .comma =
        some ⟨.array (v.node :: done) :: frames, .value⟩ := rfl
    have htail := build_itemTokens (w :: items) (by simp)
      (awaitsValue_value (.array (v.node :: done) :: frames)) rest
    rw [itemTokens, List.append_assoc, build_tokens v hb]
    · refine ((build_of_step hcomma _).trans htail).trans ?_
      simp [itemNodes]
    · simp

theorem build_fieldTokens (fields : List (String × Json)) (hne : fields ≠ [])
    (frames : List Frame) (done : List (List TextPart × Node)) (mayEnd : Bool)
    (rest : List Token) :
    build ⟨frames, .name done mayEnd⟩ (fieldTokens fields ++ ([.closing .object] ++ rest)) =
      (complete (.object (done.reverse ++ fieldNodes fields)) frames).build rest := by
  have hname (name : String) (tokens : List Token) :
      build ⟨frames, .name done mayEnd⟩ (.text (textParts name) :: .colon :: tokens) =
        build ⟨.object done (textParts name) :: frames, .value⟩ tokens := by
    have hcolon : step ⟨frames, .colon done (textParts name)⟩ .colon =
        some ⟨.object done (textParts name) :: frames, .value⟩ := rfl
    exact (build_of_step rfl _).trans (build_of_step hcolon tokens)
  match fields with
  | [] => exact absurd rfl hne
  | [(name, v)] =>
    have hclose : step ⟨frames, .afterMember ((textParts name, v.node) :: done)⟩
        (.closing .object) =
          some (complete (.object ((textParts name, v.node) :: done).reverse) frames) := rfl
    rw [fieldTokens, List.cons_append, List.cons_append, hname,
      build_tokens v (awaitsValue_value _)]
    refine (build_of_step hclose rest).trans ?_
    simp [fieldNodes]
  | (name, v) :: field :: fields =>
    have hcomma : step ⟨frames, .afterMember ((textParts name, v.node) :: done)⟩ .comma =
        some ⟨frames, .name ((textParts name, v.node) :: done) false⟩ := rfl
    have htail := build_fieldTokens (field :: fields) (by simp) frames
      ((textParts name, v.node) :: done) false rest
    rw [fieldTokens, List.append_assoc, List.cons_append, List.cons_append, hname,
      build_tokens v (awaitsValue_value _)]
    · refine ((build_of_step hcomma _).trans htail).trans ?_
      simp [fieldNodes]
    · simp

end

end Builder

@[simp] theorem ofTokens?_tokens (v : Json) : Node.ofTokens? v.tokens = some v.node := by
  have h := Builder.build_tokens v (Builder.awaitsValue_value []) []
  rw [List.append_nil] at h
  exact h

theorem ofText?_pretty_append {v : Json} (hv : v.Integral) {spaces : String}
    (hspaces : ∀ c ∈ spaces.toList, Scanner.isSpace c) :
    Node.ofText? (v.pretty ++ spaces) = some v.node := by
  rw [Node.ofText?, String.toList_append, tokens?_pretty_append hv hspaces]
  exact ofTokens?_tokens v

end Fieldwise.Json
