/-
Lists that correspond element by element.

What is computed from lists so related is the same where the elements agree on it, and two
elements with one key correspond if the keys of a list are distinct.
-/
import Mathlib.Data.List.Forall2
import Mathlib.Data.List.Nodup
import Mathlib.Data.List.Sort

namespace SecureAgnt
namespace Paired

variable {α β γ κ : Type} {R : α → β → Prop} {l : List α} {l' : List β}

theorem map_eq {f : α → γ} {g : β → γ} (hfg : ∀ a b, R a b → f a = g b)
    (h : List.Forall₂ R l l') : l.map f = l'.map g := by
  have hmap : List.Forall₂ (· = ·) (l.map f) (l'.map g) :=
    List.rel_map (fun a b hab => hfg a b hab) h
  rwa [List.forall₂_eq_eq_eq] at hmap

theorem flatMap_eq {f : α → List γ} {g : β → List γ} (hfg : ∀ a b, R a b → f a = g b)
    (h : List.Forall₂ R l l') : l.flatMap f = l'.flatMap g := by
  rw [List.flatMap_def, List.flatMap_def, map_eq hfg h]

/-- What corresponds is in the lists. -/
theorem with_mem (h : List.Forall₂ R l l') :
    List.Forall₂ (fun a b => R a b ∧ a ∈ l ∧ b ∈ l') l l' := by
  induction h with
  | nil => exact .nil
  | @cons a b l l' hab h ih =>
    refine .cons ⟨hab, List.mem_cons_self, List.mem_cons_self⟩ (ih.imp ?_)
    intro a' b' hrel
    exact ⟨hrel.1, List.mem_cons_of_mem _ hrel.2.1, List.mem_cons_of_mem _ hrel.2.2⟩

theorem find? {p : α → Bool} {q : β → Bool} (hpq : ∀ a b, R a b → p a = q b)
    (h : List.Forall₂ R l l') : Option.Rel R (l.find? p) (l'.find? q) := by
  induction h with
  | nil => exact .none
  | @cons a b l l' hab h ih =>
    rw [List.find?_cons, List.find?_cons, hpq a b hab]
    cases q b with
    | true => exact .some hab
    | false => exact ih

theorem any_eq {p : α → Bool} {q : β → Bool} (hpq : ∀ a b, R a b → p a = q b)
    (h : List.Forall₂ R l l') : l.any p = l'.any q := by
  induction h with
  | nil => rfl
  | @cons a b l l' hab h ih => rw [List.any_cons, List.any_cons, hpq a b hab, ih]

theorem countP_eq {p : α → Bool} {q : β → Bool} (hpq : ∀ a b, R a b → p a = q b)
    (h : List.Forall₂ R l l') : l.countP p = l'.countP q := by
  induction h with
  | nil => rfl
  | @cons a b l l' hab h ih => rw [List.countP_cons, List.countP_cons, hpq a b hab, ih]

theorem filter {p : α → Bool} {q : β → Bool} (hpq : ∀ a b, R a b → p a = q b)
    (h : List.Forall₂ R l l') : List.Forall₂ R (l.filter p) (l'.filter q) :=
  List.rel_filter (fun {a b} hab => Bool.eq_iff_iff.mp (hpq a b hab)) h

theorem orderedInsert {r : α → α → Prop} {r' : β → β → Prop} [DecidableRel r] [DecidableRel r']
    (hr : ∀ a b, R a b → ∀ a' b', R a' b' → (r a a' ↔ r' b b')) {a : α} {b : β} (hab : R a b)
    (h : List.Forall₂ R l l') :
    List.Forall₂ R (l.orderedInsert r a) (l'.orderedInsert r' b) := by
  induction h with
  | nil => exact .cons hab .nil
  | @cons a' b' l l' hab' h ih =>
    rw [List.orderedInsert, List.orderedInsert]
    by_cases hle : r a a'
    · rw [if_pos hle, if_pos ((hr a b hab a' b' hab').mp hle)]
      exact .cons hab (.cons hab' h)
    · rw [if_neg hle, if_neg fun hle' => hle ((hr a b hab a' b' hab').mpr hle')]
      exact .cons hab' ih

/-- Lists sorted by what their elements agree on. -/
theorem insertionSort {r : α → α → Prop} {r' : β → β → Prop} [DecidableRel r] [DecidableRel r']
    (hr : ∀ a b, R a b → ∀ a' b', R a' b' → (r a a' ↔ r' b b')) (h : List.Forall₂ R l l') :
    List.Forall₂ R (l.insertionSort r) (l'.insertionSort r') := by
  induction h with
  | nil => exact .nil
  | cons hab h ih => exact orderedInsert hr hab ih

theorem head?_map_eq {f : α → γ} {g : β → γ} (hfg : ∀ a b, R a b → f a = g b)
    (h : List.Forall₂ R l l') : l.head?.map f = l'.head?.map g := by
  cases h with
  | nil => rfl
  | cons hab h => exact congrArg some (hfg _ _ hab)

theorem exists_right (h : List.Forall₂ R l l') {a : α} (ha : a ∈ l) : ∃ b ∈ l', R a b := by
  induction h with
  | nil => cases ha
  | @cons a' b l l' hab h ih =>
    rcases List.mem_cons.mp ha with rfl | ha
    · exact ⟨b, List.mem_cons_self, hab⟩
    · obtain ⟨b', hb', hrel⟩ := ih ha
      exact ⟨b', List.mem_cons_of_mem _ hb', hrel⟩

theorem exists_left (h : List.Forall₂ R l l') {b : β} (hb : b ∈ l') : ∃ a ∈ l, R a b := by
  induction h with
  | nil => cases hb
  | @cons a b' l l' hab h ih =>
    rcases List.mem_cons.mp hb with rfl | hb
    · exact ⟨a, List.mem_cons_self, hab⟩
    · obtain ⟨a', ha', hrel⟩ := ih hb
      exact ⟨a', List.mem_cons_of_mem _ ha', hrel⟩

/-- Elements with one key correspond. -/
theorem related_of_key {key : α → κ} {key' : β → κ} (hkey : ∀ a b, R a b → key a = key' b)
    (hnodup : (l.map key).Nodup) (h : List.Forall₂ R l l') {a : α} {b : β} (ha : a ∈ l)
    (hb : b ∈ l') (hab : key a = key' b) : R a b := by
  obtain ⟨a', ha', hrel⟩ := exists_left h hb
  have hsame : key a' = key a := (hkey a' b hrel).trans hab.symm
  rwa [List.inj_on_of_nodup_map hnodup ha' ha hsame] at hrel

end Paired
end SecureAgnt
