import Mathlib.Data.List.Forall2

namespace AwaLang

variable {ε α β : Type}

theorem exists_of_map_eq_ok {f : α → β} {result : Except ε α} {b : β}
    (mapped : result.map f = .ok b) : ∃ a, result = .ok a ∧ f a = b := by
  cases result with
  | error fault => contradiction
  | ok a => exact ⟨a, rfl, Except.ok.inj mapped⟩

theorem exists_of_bind_eq_ok {result : Except ε α} {f : α → Except ε β} {b : β}
    (bound : result >>= f = .ok b) : ∃ a, result = .ok a ∧ f a = .ok b := by
  cases result with
  | error fault => contradiction
  | ok a => exact ⟨a, rfl, bound⟩

theorem mapM_eq_ok_iff {f : α → Except ε β} {items : List α} {results : List β} :
    items.mapM f = .ok results ↔ List.Forall₂ (fun a b => f a = .ok b) items results := by
  constructor
  · intro done
    induction items generalizing results with
    | nil =>
      rw [List.mapM_nil] at done
      exact Except.ok.inj done ▸ .nil
    | cons first rest ih =>
      rw [List.mapM_cons] at done
      obtain ⟨b, own, done⟩ := exists_of_bind_eq_ok done
      obtain ⟨others, later, made⟩ := exists_of_bind_eq_ok done
      exact Except.ok.inj made ▸ .cons own (ih later)
  · intro each
    induction each with
    | nil => rfl
    | cons own _ ih =>
      rw [List.mapM_cons, own, ih]
      rfl

theorem exists_of_mapM_eq_ok {f : α → Except ε β} {items : List α} {results : List β}
    (done : items.mapM f = .ok results) {a : α} (member : a ∈ items) : ∃ b, f a = .ok b := by
  rw [mapM_eq_ok_iff] at done
  induction done with
  | nil => contradiction
  | cons own _ ih =>
    rcases List.mem_cons.1 member with rfl | further
    · exact ⟨_, own⟩
    · exact ih further

theorem mapM_congr {f g : α → Except ε β} {items : List α} (same : ∀ a ∈ items, f a = g a) :
    items.mapM f = items.mapM g := by
  induction items with
  | nil => rfl
  | cons first rest ih =>
    rw [List.forall_mem_cons] at same
    rw [List.mapM_cons, List.mapM_cons, same.1, ih same.2]

theorem map_eq_of_mapM_eq_ok {γ : Type} {f : α → Except ε β} {items : List α} {results : List β}
    {observe : β → γ} {expected : α → γ} (done : items.mapM f = .ok results)
    (each : ∀ a ∈ items, ∀ b, f a = .ok b → observe b = expected a) :
    results.map observe = items.map expected := by
  rw [mapM_eq_ok_iff] at done
  induction done with
  | nil => rfl
  | cons own _ ih =>
    rw [List.forall_mem_cons] at each
    rw [List.map_cons, List.map_cons, each.1 _ own, ih each.2]

theorem length_of_mapM_eq_ok {f : α → Except ε β} {items : List α} {results : List β}
    (done : items.mapM f = .ok results) : results.length = items.length :=
  (mapM_eq_ok_iff.1 done).length_eq.symm

theorem forall_of_mapM_eq_ok {P : β → Prop} {f : α → Except ε β} {items : List α}
    {results : List β} (done : items.mapM f = .ok results)
    (each : ∀ a ∈ items, ∀ b, f a = .ok b → P b) : ∀ b ∈ results, P b := by
  rw [mapM_eq_ok_iff] at done
  induction done with
  | nil => exact List.forall_mem_nil P
  | cons own _ ih =>
    rw [List.forall_mem_cons] at each
    rw [List.forall_mem_cons]
    exact ⟨each.1 _ own, ih each.2⟩

theorem mapM_eq_ok_comm {δ : Type} {f : α → Except ε β} {g : β → Except δ α}
    (inverse : ∀ a b, f a = .ok b ↔ g b = .ok a) {items : List α} {results : List β} :
    items.mapM f = .ok results ↔ results.mapM g = .ok items := by
  have swapped : (fun a b => f a = .ok b) = flip fun b a => g b = .ok a :=
    funext₂ fun a b => propext (inverse a b)
  rw [mapM_eq_ok_iff, mapM_eq_ok_iff, swapped]
  exact ⟨List.Forall₂.flip, List.Forall₂.flip⟩

def faultOf : Except ε α → Option ε
  | .ok _ => none
  | .error fault => some fault

theorem faultOf_eq_some_iff {result : Except ε α} {fault : ε} :
    faultOf result = some fault ↔ result = .error fault := by
  cases result <;> simp [faultOf]

theorem faultOf_eq_none_iff {result : Except ε α} :
    faultOf result = none ↔ ∃ a, result = .ok a := by
  cases result <;> simp [faultOf]

theorem faultOf_map (f : α → β) (result : Except ε α) :
    faultOf (result.map f) = faultOf result := by
  cases result <;> rfl

theorem faultOf_mapM (f : α → Except ε β) (items : List α) :
    faultOf (items.mapM f) = items.findSome? fun a => faultOf (f a) := by
  induction items with
  | nil => rfl
  | cons first rest ih =>
    rw [List.mapM_cons, List.findSome?_cons]
    cases own : f first with
    | error fault => rfl
    | ok b =>
      rw [show faultOf (Except.ok b : Except ε β) = none from rfl, ← ih]
      cases rest.mapM f <;> rfl

end AwaLang
