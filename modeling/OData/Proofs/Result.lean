import Mathlib.Data.List.Forall2
import OData.Error

/-!
# Results

`bind_eq_ok` takes a sequence of checks that all pass apart, `mapM_eq_ok` the results for the items
of a list.
-/

set_option autoImplicit false

namespace OData.Result

variable {α β γ : Type}

theorem bind_eq_ok {x : Result α} {f : α → Result β} {b : β} :
    x >>= f = .ok b ↔ ∃ a, x = .ok a ∧ f a = .ok b := by
  cases x with
  | error e => simp [bind, Except.bind]
  | ok a => simp [bind, Except.bind]

@[simp] theorem pure_eq_ok {a b : α} : (pure a : Result α) = .ok b ↔ a = b := by
  simp [pure, Except.pure]

/-- A check of each item of a list passes for all of them. -/
theorem forM_eq_ok {f : α → Result Unit} {items : List α} (checked : items.forM f = .ok ()) :
    ∀ a ∈ items, f a = .ok () := by
  induction items with
  | nil => exact fun a member => absurd member (by simp)
  | cons first rest ih =>
    obtain ⟨⟨⟩, here, others⟩ := bind_eq_ok.mp checked
    intro a member
    rcases List.mem_cons.mp member with rfl | later
    · exact here
    · exact ih others a later

theorem mapM_eq_ok {f : α → Result β} {items : List α} {made : List β} :
    items.mapM f = .ok made ↔ List.Forall₂ (fun a b => f a = .ok b) items made := by
  induction items generalizing made with
  | nil => cases made <;> simp [pure, Except.pure]
  | cons item rest ih =>
    rw [List.mapM_cons]
    simp only [bind_eq_ok, pure_eq_ok]
    constructor
    · rintro ⟨b, first, others, later, rfl⟩
      exact .cons first (ih.mp later)
    · intro each
      cases each with
      | cons first later => exact ⟨_, first, _, ih.mpr later, rfl⟩

theorem exists_of_mem_mapM {f : α → Result β} {items : List α} {made : List β}
    (found : items.mapM f = .ok made) {b : β} (member : b ∈ made) : ∃ a ∈ items, f a = .ok b := by
  have each := mapM_eq_ok.mp found
  clear found
  induction each with
  | nil => cases member
  | cons first _ ih =>
    rcases List.mem_cons.mp member with rfl | later
    · exact ⟨_, List.mem_cons_self, first⟩
    · obtain ⟨a, among, made⟩ := ih later
      exact ⟨a, List.mem_cons_of_mem _ among, made⟩

/-- Two passes over a list succeed if one pass with both steps does. -/
theorem mapM_bind_eq_ok {f : α → Result β} {g : β → Result γ} {items : List α} {made : List γ} :
    (∃ found, items.mapM f = .ok found ∧ found.mapM g = .ok made) ↔
      items.mapM (fun a => f a >>= g) = .ok made := by
  simp only [mapM_eq_ok, bind_eq_ok]
  constructor
  · rintro ⟨found, first, second⟩
    induction first generalizing made with
    | nil =>
      cases second
      exact .nil
    | cons here _ ih =>
      cases second with
      | cons there later => exact .cons ⟨_, here, there⟩ (ih later)
  · intro both
    induction both with
    | nil => exact ⟨[], .nil, .nil⟩
    | @cons a c _ _ steps _ ih =>
      obtain ⟨b, here, there⟩ := steps
      obtain ⟨found, first, second⟩ := ih
      exact ⟨b :: found, .cons here first, .cons there second⟩

end OData.Result
