/-!
Association tables as lists of entries. The order of the entries is the order in which their keys
were first put in; putting a key again changes its value in place.
-/

namespace Fieldwise

abbrev Table (κ α : Type) := List (κ × α)

namespace Table

variable {κ α : Type} [DecidableEq κ]

def get? (key : κ) : Table κ α → Option α
  | [] => none
  | (k, v) :: rest => if k = key then some v else get? key rest

def has (key : κ) (t : Table κ α) : Bool := (t.get? key).isSome

def keys (t : Table κ α) : List κ := t.map Prod.fst

def put (key : κ) (value : α) : Table κ α → Table κ α
  | [] => [(key, value)]
  | (k, v) :: rest => if k = key then (key, value) :: rest else (k, v) :: put key value rest

/-- Takes an entry out; the last entry moves to its place. -/
def remove (key : κ) (t : Table κ α) : Table κ α :=
  match t.getLast? with
  | none => []
  | some last =>
    if !t.has key then t
    else if last.1 = key then t.dropLast
    else t.dropLast.map fun entry => if entry.1 = key then last else entry

def ofList (entries : List (κ × α)) : Table κ α :=
  entries.foldl (fun t entry => t.put entry.1 entry.2) []

@[simp] theorem get?_nil (key : κ) : get? key ([] : Table κ α) = none := rfl

theorem get?_append (key : κ) (front back : Table κ α) :
    Table.get? key (front ++ back) = (front.get? key).or (back.get? key) := by
  induction front with
  | nil => simp
  | cons entry rest ih =>
    by_cases h : entry.1 = key <;> simp [get?, h, ih]

theorem get?_map {β : Type} (f : α → β) (key : κ) (t : Table κ α) :
    Table.get? key (t.map fun entry => (entry.1, f entry.2)) = (t.get? key).map f := by
  induction t with
  | nil => rfl
  | cons entry rest ih =>
    by_cases h : entry.1 = key <;> simp [get?, h, ih]

@[simp] theorem get?_put_self (key : κ) (value : α) (t : Table κ α) :
    (t.put key value).get? key = some value := by
  induction t with
  | nil => simp [put, get?]
  | cons entry rest ih =>
    by_cases h : entry.1 = key <;> simp [put, get?, h, ih]

theorem get?_put_of_ne {key key' : κ} (h : key' ≠ key) (value : α) (t : Table κ α) :
    (t.put key value).get? key' = t.get? key' := by
  induction t with
  | nil => simp [put, get?, Ne.symm h]
  | cons entry rest ih =>
    by_cases hk : entry.1 = key
    · simp [put, get?, hk, Ne.symm h]
    · simp [put, get?, hk, ih]

theorem keys_put (key : κ) (value : α) (t : Table κ α) :
    (t.put key value).keys = if key ∈ t.keys then t.keys else t.keys ++ [key] := by
  induction t with
  | nil => simp [put, keys]
  | cons entry rest ih =>
    simp only [keys, List.map_cons, List.mem_cons] at ih ⊢
    by_cases hk : entry.1 = key
    · simp [put, hk]
    · by_cases hm : key ∈ rest.map Prod.fst <;> simp_all [put, Ne.symm hk]

theorem mem_of_get? {key : κ} {value : α} {t : Table κ α} (h : t.get? key = some value) :
    (key, value) ∈ t := by
  induction t with
  | nil => simp at h
  | cons entry rest ih =>
    by_cases hk : entry.1 = key
    · obtain rfl : entry.2 = value := by simpa [get?, hk] using h
      simp [← hk]
    · simp only [get?, hk, if_false] at h
      exact List.mem_cons_of_mem _ (ih h)

theorem get?_eq_some_iff {key : κ} {value : α} {t : Table κ α} (h : t.keys.Nodup) :
    t.get? key = some value ↔ (key, value) ∈ t := by
  refine ⟨mem_of_get?, fun hmem => ?_⟩
  induction t with
  | nil => cases hmem
  | cons entry rest ih =>
    obtain ⟨hentry, hrest⟩ := List.nodup_cons.mp h
    rcases List.mem_cons.mp hmem with rfl | hmem
    · simp [get?]
    · have hne : entry.1 ≠ key := fun heq => hentry (heq ▸ List.mem_map_of_mem hmem)
      rw [get?, if_neg hne]
      exact ih hrest hmem

theorem mem_of_mem_put {key : κ} {value : α} {t : Table κ α} {entry : κ × α}
    (h : entry ∈ t.put key value) : entry = (key, value) ∨ entry ∈ t := by
  induction t with
  | nil => simpa [put] using h
  | cons first rest ih =>
    by_cases hk : first.1 = key
    · simp only [put, hk, if_true, List.mem_cons] at h ⊢
      exact h.imp_right .inr
    · simp only [put, hk, if_false, List.mem_cons] at h ⊢
      rcases h with h | h
      · exact .inr (.inl h)
      · exact (ih h).imp_right .inr

theorem mem_of_mem_foldl_put {entries : List (κ × α)} {t : Table κ α} {entry : κ × α}
    (h : entry ∈ entries.foldl (fun t e => t.put e.1 e.2) t) : entry ∈ t ∨ entry ∈ entries := by
  induction entries generalizing t with
  | nil => exact .inl h
  | cons first rest ih =>
    rcases ih h with hput | hrest
    · rcases mem_of_mem_put hput with rfl | ht
      · exact .inr (by simp)
      · exact .inl ht
    · exact .inr (List.mem_cons_of_mem _ hrest)

theorem mem_of_mem_ofList {entries : List (κ × α)} {entry : κ × α} (h : entry ∈ ofList entries) :
    entry ∈ entries :=
  (mem_of_mem_foldl_put h).resolve_left (by simp)

theorem put_of_notMem {key : κ} {t : Table κ α} (h : key ∉ t.keys) (value : α) :
    t.put key value = t ++ [(key, value)] := by
  induction t with
  | nil => rfl
  | cons entry rest ih =>
    simp only [keys, List.map_cons, List.mem_cons, not_or] at h
    simp [put, Ne.symm h.1, ih h.2]

theorem get?_eq_none_iff {key : κ} {t : Table κ α} : t.get? key = none ↔ key ∉ t.keys := by
  induction t with
  | nil => simp [keys]
  | cons entry rest ih =>
    simp only [keys, List.map_cons, List.mem_cons] at ih ⊢
    by_cases hk : entry.1 = key
    · simp [get?, hk]
    · simp [get?, hk, Ne.symm hk, ih]

theorem has_iff {key : κ} {t : Table κ α} : t.has key = true ↔ key ∈ t.keys := by
  rw [has, Option.isSome_iff_ne_none, ne_eq, get?_eq_none_iff, Decidable.not_not]

theorem put_of_get? {key : κ} {value : α} {t : Table κ α} (h : t.get? key = some value) :
    t.put key value = t := by
  induction t with
  | nil => cases h
  | cons entry rest ih =>
    by_cases hk : entry.1 = key
    · obtain rfl : entry.2 = value := by simpa [get?, hk] using h
      simp [put, ← hk]
    · rw [get?, if_neg hk] at h
      simp [put, hk, ih h]

theorem nodup_keys_put {key : κ} {t : Table κ α} (h : t.keys.Nodup) (value : α) :
    (t.put key value).keys.Nodup := by
  rw [keys_put]
  split
  · exact h
  · next hkey =>
    refine List.nodup_append.mpr ⟨h, by simp, fun k hk k' hk' heq => hkey ?_⟩
    rwa [← List.mem_singleton.mp hk', ← heq]

theorem nodup_keys_ofList (entries : List (κ × α)) : (keys (ofList entries)).Nodup := by
  have hfold (t : Table κ α) (ht : t.keys.Nodup) :
      (keys (entries.foldl (fun t entry => t.put entry.1 entry.2) t)).Nodup := by
    induction entries generalizing t with
    | nil => exact ht
    | cons entry rest ih => exact ih _ (nodup_keys_put ht entry.2)
  exact hfold [] List.nodup_nil

omit [DecidableEq κ] in
theorem notMem_keys_of_nodup {front : Table κ α} {last : κ × α}
    (h : (keys (front ++ [last])).Nodup) : last.1 ∉ front.keys := by
  simp only [keys, List.map_append, List.nodup_append] at h
  intro hmem
  exact h.2.2 _ hmem _ (by simp) rfl

theorem get?_replace {key key' : κ} {other : κ × α} {t : Table κ α} (hnew : other.1 ∉ t.keys)
    (hne : key' ≠ key) :
    Table.get? key' (t.map fun entry => if entry.1 = key then other else entry) =
      if other.1 = key' ∧ (t.get? key).isSome then some other.2 else t.get? key' := by
  induction t with
  | nil => simp
  | cons entry rest ih =>
    simp only [keys, List.map_cons, List.mem_cons, not_or] at hnew
    have ih := ih hnew.2
    by_cases hk : entry.1 = key
    · by_cases ho : other.1 = key' <;> simp [get?, hk, ho, Ne.symm hne, ih]
    · by_cases hk' : entry.1 = key'
      · have ho : ¬ other.1 = key' := fun ho => hnew.1 (ho.trans hk'.symm)
        simp [get?, hk', ho, hne]
      · simp [get?, hk, hk', ih]

theorem get?_remove_self {key : κ} {t : Table κ α} (h : t.keys.Nodup) :
    (t.remove key).get? key = none := by
  unfold remove
  split
  · rfl
  · next last hlast =>
    obtain ⟨front, rfl⟩ := List.getLast?_eq_some_iff.mp hlast
    rw [List.dropLast_concat]
    split
    · next habsent => simpa [has] using habsent
    · split
      · next hk =>
        exact get?_eq_none_iff.mpr (hk ▸ notMem_keys_of_nodup h)
      · next hk =>
        rw [get?_eq_none_iff, keys, List.map_map, List.mem_map]
        rintro ⟨entry, -, hentry⟩
        simp only [Function.comp_apply] at hentry
        split at hentry
        · exact hk hentry
        · contradiction

/-- Every other key has the value that it had, though the last one may have moved. -/
theorem get?_remove_of_ne {key key' : κ} {t : Table κ α} (h : t.keys.Nodup) (hne : key' ≠ key) :
    (t.remove key).get? key' = t.get? key' := by
  unfold remove
  split
  · next hempty => rw [List.getLast?_eq_none_iff.mp hempty]
  · next last hlast =>
    obtain ⟨front, rfl⟩ := List.getLast?_eq_some_iff.mp hlast
    rw [List.dropLast_concat]
    split
    · rfl
    · next hhas =>
      split
      · next hk =>
        have hlast : ¬ last.1 = key' := fun hk' => hne (hk'.symm.trans hk)
        simp [get?_append, get?, hlast]
      · next hk =>
        -- The last entry takes the place of the one with `key`, which stands before it.
        have hnew := notMem_keys_of_nodup h
        have hmem : (get? key front).isSome := by
          simpa [has, get?_append, get?, hk, Option.isSome_iff_ne_none] using hhas
        rw [get?_append, get?_replace hnew hne]
        by_cases hlast : last.1 = key'
        · subst hlast
          simp [get?_eq_none_iff.mpr hnew, hmem, get?]
        · simp [hlast, get?]

end Table

end Fieldwise
