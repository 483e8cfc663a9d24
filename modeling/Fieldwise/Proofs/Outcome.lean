import Fieldwise.World
import Mathlib.Order.Defs.Unbundled

/-!
What stateful computations come to: with a value, with an ordinary error or with formats at fault.
Statements about a sequence follow from statements about its steps, and so do statements that two
sequences come to the same, and statements about what is kept however a sequence ends.
-/

namespace Fieldwise

variable {σ α β : Type}

/-- A result with a value and a state as `P` says, or with an error after which the state is as
`Q` says; formats are at fault only if `bad`. -/
def Ends (bad : Prop) (Q : σ → Prop) (P : α → σ → Prop) : EStateM.Result Failure σ α → Prop
  | .ok a s => P a s
  | .error (.error _) s => Q s
  | .error .unformattable _ => bad

theorem Ends.exists_ok {bad : Prop} {P : α → σ → Prop} {r : EStateM.Result Failure σ α}
    (h : Ends bad (fun _ => False) P r) (hbad : ¬ bad) : ∃ a s, r = .ok a s ∧ P a s := by
  cases r with
  | ok a s => exact ⟨a, s, rfl, h⟩
  | error failure s =>
    cases failure with
    | error e => exact h.elim
    | unformattable => exact absurd h hbad

/-- From the state `s` two computations come to the same, which is as said. -/
def Agree (bad : Prop) (Q : σ → Prop) (P : α → σ → Prop) (s : σ)
    (x y : EStateM Failure σ α) : Prop :=
  x s = y s ∧ Ends bad Q P (x s)

theorem except_bind_eq_ok {ε : Type} {x : Except ε α} {k : α → Except ε β} {b : β} :
    (x >>= k) = .ok b ↔ ∃ a, x = .ok a ∧ k a = .ok b := by
  cases x with
  | ok a =>
    refine ⟨fun h => ⟨a, rfl, h⟩, ?_⟩
    rintro ⟨_, ⟨rfl⟩, h⟩
    exact h
  | error e => simp [bind, Except.bind]

theorem except_seq_eq_ok {ε : Type} {x : Except ε Unit} {k : Unit → Except ε β} {b : β} :
    (x >>= k) = .ok b ↔ x = .ok () ∧ k () = .ok b := by
  rw [except_bind_eq_ok]
  exact ⟨fun ⟨(), h⟩ => h, fun h => ⟨(), h⟩⟩

theorem except_forM_eq_ok {ε : Type} {check : α → Except ε Unit} {items : List α} :
    items.forM check = .ok () ↔ ∀ a ∈ items, check a = .ok () := by
  induction items with
  | nil => exact iff_of_true rfl (by simp)
  | cons a rest ih =>
    change (check a >>= fun _ => rest.forM check) = .ok () ↔ _
    rw [except_seq_eq_ok, ih, List.forall_mem_cons]

@[simp] theorem pure_apply (a : α) (s : σ) : (pure a : EStateM Failure σ α) s = .ok a s := rfl

@[simp] theorem get_apply (s : σ) : (get : EStateM Failure σ σ) s = .ok s s := rfl

@[simp] theorem modify_apply (f : σ → σ) (s : σ) :
    (modify f : EStateM Failure σ Unit) s = .ok () (f s) := rfl

@[simp] theorem throw_apply (f : Failure) (s : σ) :
    (throw f : EStateM Failure σ α) s = .error f s := rfl

theorem bind_apply (x : EStateM Failure σ α) (k : α → EStateM Failure σ β) (s : σ) :
    (x >>= k) s = match x s with
      | .ok a s' => k a s'
      | .error e s' => .error e s' := by
  simp only [bind, EStateM.bind]
  cases x s <;> rfl

theorem map_apply (k : α → β) (x : EStateM Failure σ α) (s : σ) :
    (k <$> x) s = match x s with
      | .ok a s' => .ok (k a) s'
      | .error e s' => .error e s' := by
  simp only [Functor.map, EStateM.map]
  cases x s <;> rfl

theorem bind_eq_ok {x : EStateM Failure σ α} {k : α → EStateM Failure σ β} {s s' : σ} {b : β} :
    (x >>= k) s = .ok b s' ↔ ∃ a s₁, x s = .ok a s₁ ∧ k a s₁ = .ok b s' := by
  rw [bind_apply]
  cases x s with
  | ok a s₁ =>
    refine ⟨fun h => ⟨a, s₁, rfl, h⟩, ?_⟩
    rintro ⟨_, _, ⟨rfl, rfl⟩, h⟩
    exact h
  | error f s₁ => simp

theorem bind_eq_error {x : EStateM Failure σ α} {k : α → EStateM Failure σ β} {s s' : σ}
    {f : Failure} : (x >>= k) s = .error f s' ↔
      x s = .error f s' ∨ ∃ a s₁, x s = .ok a s₁ ∧ k a s₁ = .error f s' := by
  rw [bind_apply]
  cases x s with
  | ok a s₁ =>
    refine ⟨fun h => .inr ⟨a, s₁, rfl, h⟩, ?_⟩
    rintro (h | ⟨_, _, ⟨rfl, rfl⟩, h⟩)
    · cases h
    · exact h
  | error f s₁ => simp

theorem forM_cons_apply (f : α → EStateM Failure σ Unit) (a : α) (rest : List α) :
    (a :: rest).forM f = f a >>= fun _ => rest.forM f := rfl

theorem forM_append_apply (f : α → EStateM Failure σ Unit) (front back : List α) :
    (front ++ back).forM f = front.forM f >>= fun _ => back.forM f :=
  List.forM_append

theorem forM_eq_error {f : α → EStateM Failure σ Unit} {items : List α} {s s' : σ} {x : Failure} :
    items.forM f s = .error x s' ↔ ∃ done a rest s₁,
      items = done ++ a :: rest ∧ done.forM f s = .ok () s₁ ∧ f a s₁ = .error x s' := by
  induction items generalizing s with
  | nil => simp
  | cons a items ih =>
    rw [forM_cons_apply, bind_eq_error]
    constructor
    · rintro (ha | ⟨u, s₁, ha, hrest⟩)
      · exact ⟨[], a, items, s, rfl, rfl, ha⟩
      · obtain ⟨done, b, rest, s₂, rfl, hdone, hb⟩ := ih.mp hrest
        exact ⟨a :: done, b, rest, s₂, rfl, bind_eq_ok.mpr ⟨u, s₁, ha, hdone⟩, hb⟩
    · rintro ⟨done, b, rest, s₂, hitems, hdone, hb⟩
      cases done with
      | nil =>
        cases hitems
        cases hdone
        exact .inl hb
      | cons c done =>
        cases hitems
        obtain ⟨u, s₁, ha, hdone⟩ := bind_eq_ok.mp hdone
        exact .inr ⟨u, s₁, ha, ih.mpr ⟨done, b, rest, s₂, rfl, hdone, hb⟩⟩

/-- The state that a computation leaves behind, whether it fails or not. -/
def after (x : EStateM Failure σ α) (s : σ) : σ :=
  match x s with
  | .ok _ s' => s'
  | .error _ s' => s'

theorem after_of_ok {x : EStateM Failure σ α} {s s' : σ} {a : α} (h : x s = .ok a s') :
    after x s = s' := by
  simp [after, h]

theorem after_of_error {x : EStateM Failure σ α} {s s' : σ} {f : Failure}
    (h : x s = .error f s') : after x s = s' := by
  simp [after, h]

theorem after_bind (x : EStateM Failure σ α) (k : α → EStateM Failure σ β) (s : σ) :
    after (x >>= k) s = match x s with
      | .ok a s' => after (k a) s'
      | .error _ s' => s' := by
  unfold after
  rw [bind_apply]
  cases x s <;> rfl

theorem after_map (k : α → β) (x : EStateM Failure σ α) (s : σ) :
    after (k <$> x) s = after x s := by
  unfold after
  rw [map_apply]
  cases x s <;> rfl

def value? (x : EStateM Failure σ α) (s : σ) : Option α :=
  match x s with
  | .ok a _ => some a
  | .error _ _ => none

def error? (x : EStateM Failure σ α) (s : σ) : Option Error :=
  match x s with
  | .error (.error e) _ => some e
  | _ => none

theorem eq_ok_of_value? {x : EStateM Failure σ α} {s : σ} {a : α} (h : value? x s = some a) :
    x s = .ok a (after x s) := by
  unfold value? at h
  split at h
  · rename_i hx
    cases h
    rw [after_of_ok hx, hx]
  · cases h

theorem exists_eq_ok_of_value? {x : EStateM Failure σ α} {s : σ} (h : (value? x s).isSome) :
    ∃ a, x s = .ok a (after x s) := by
  obtain ⟨a, ha⟩ := Option.isSome_iff_exists.mp h
  exact ⟨a, eq_ok_of_value? ha⟩

theorem eq_error_of_error? {x : EStateM Failure σ α} {s : σ} {e : Error}
    (h : error? x s = some e) : x s = .error (.error e) (after x s) := by
  unfold error? at h
  split at h
  · rename_i hx
    cases h
    rw [after_of_error hx, hx]
  · cases h

/-- Whatever state a computation starts in, the one that it leaves behind is as `R` says. -/
def Keeps (R : σ → σ → Prop) (x : EStateM Failure σ α) : Prop := ∀ s, R s (after x s)

namespace Keeps

variable {R R' : σ → σ → Prop} {x : EStateM Failure σ α} {s s' : σ}

theorem of_ok {a : α} (h : Keeps R x) (hx : x s = .ok a s') : R s s' := by
  simpa [after_of_ok hx] using h s

theorem of_error {f : Failure} (h : Keeps R x) (hx : x s = .error f s') : R s s' := by
  simpa [after_of_error hx] using h s

theorem mono (h : Keeps R x) (hR : ∀ s s', R s s' → R' s s') : Keeps R' x :=
  fun s => hR s _ (h s)

theorem map {k : α → β} (h : Keeps R x) : Keeps R (k <$> x) := by
  intro s
  rw [after_map]
  exact h s

theorem bind [IsTrans σ R] {k : α → EStateM Failure σ β} (h : Keeps R x) (hk : ∀ a, Keeps R (k a)) :
    Keeps R (x >>= k) := by
  intro s
  rw [after_bind]
  cases hx : x s with
  | ok a s₁ => exact trans_of R (h.of_ok hx) (hk a s₁)
  | error f s₁ => exact h.of_error hx

variable [Std.Refl R]

theorem pure {a : α} : Keeps R (pure a) := fun s => refl_of R s

theorem throw {f : Failure} : Keeps R (throw f : EStateM Failure σ α) := fun s => refl_of R s

theorem get : Keeps R (get : EStateM Failure σ σ) := fun s => refl_of R s

variable [IsTrans σ R]

theorem forM {items : List α} {f : α → EStateM Failure σ Unit} (h : ∀ a ∈ items, Keeps R (f a)) :
    Keeps R (items.forM f) := by
  induction items with
  | nil => exact .pure
  | cons a rest ih =>
    rw [forM_cons_apply]
    exact (h a (by simp)).bind fun _ => ih fun b hb => h b (by simp [hb])

end Keeps

namespace Agree

variable {bad : Prop} {Q Q' : σ → Prop} {P P' : α → σ → Prop} {s : σ} {x y : EStateM Failure σ α}

theorem pure {a : α} (h : P a s) : Agree bad Q P s (pure a) (pure a) := ⟨rfl, h⟩

theorem throw {e : Error} (h : Q s) :
    Agree bad Q P s (throw (.error e)) (throw (.error e)) := ⟨rfl, h⟩

theorem unformattable (h : bad) :
    Agree bad Q P s (MonadExcept.throw .unformattable) (MonadExcept.throw .unformattable) :=
  ⟨rfl, h⟩

theorem mono (h : Agree bad Q P s x y) (hQ : ∀ s', Q s' → Q' s')
    (hP : ∀ a s', P a s' → P' a s') : Agree bad Q' P' s x y := by
  obtain ⟨heq, hends⟩ := h
  refine ⟨heq, ?_⟩
  cases hx : x s with
  | ok a s' =>
    rw [hx] at hends
    exact hP a s' hends
  | error f s' =>
    rw [hx] at hends
    cases f with
    | error e => exact hQ s' hends
    | unformattable => exact hends

theorem bind {R : β → σ → Prop} {k l : α → EStateM Failure σ β} (h : Agree bad Q P s x y)
    (hk : ∀ a s', P a s' → Agree bad Q R s' (k a) (l a)) :
    Agree bad Q R s (x >>= k) (y >>= l) := by
  obtain ⟨heq, hends⟩ := h
  unfold Agree
  rw [bind_apply, bind_apply, ← heq]
  cases hx : x s with
  | ok a s' =>
    rw [hx] at hends
    exact hk a s' hends
  | error f s' =>
    rw [hx] at hends
    exact ⟨rfl, by cases f <;> exact hends⟩

theorem map {R : β → σ → Prop} {k : α → β} (h : Agree bad Q P s x y)
    (hk : ∀ a s', P a s' → R (k a) s') : Agree bad Q R s (k <$> x) (k <$> y) := by
  rw [map_eq_pure_bind, map_eq_pure_bind]
  exact h.bind fun a s' ha => .pure (hk a s' ha)

end Agree

end Fieldwise
