import Mathlib

/-!
Lists cut at the place where a predicate turns from true to false.
-/
namespace Chiptune

variable {α : Type} {p q : α → Bool} {l : List α}

/-- Filtering a list at a place where the predicate turns false leaves what is before it. -/
theorem filter_append_of_turn {before after : List α} (hbefore : ∀ a ∈ before, p a = true)
    (hafter : ∀ a ∈ after, ¬ p a = true) : (before ++ after).filter p = before := by
  rw [List.filter_append, List.filter_eq_self.mpr hbefore, List.filter_eq_nil_iff.mpr hafter,
    List.append_nil]

/-- Behind the place where a predicate turns false it stays so, if it never turns back. -/
theorem not_of_mem_dropWhile (hturn : l.Pairwise fun a b => p b = true → p a = true) {a : α}
    (ha : a ∈ l.dropWhile p) : ¬ p a = true := by
  induction l with
  | nil => simp at ha
  | cons first rest ih =>
      rw [List.pairwise_cons] at hturn
      rw [List.dropWhile_cons] at ha
      split at ha
      · exact ih hturn.2 ha
      · next hfirst =>
          rcases List.mem_cons.mp ha with rfl | hrest
          · exact hfirst
          · exact fun hpa => hfirst (hturn.1 a hrest hpa)

theorem takeWhile_eq_filter (hturn : l.Pairwise fun a b => p b = true → p a = true) :
    l.takeWhile p = l.filter p := by
  have hbefore : ∀ a ∈ l.takeWhile p, p a = true := fun a ha => List.mem_takeWhile_imp ha
  have hcut := filter_append_of_turn hbefore fun a ha => not_of_mem_dropWhile hturn ha
  rw [List.takeWhile_append_dropWhile] at hcut
  exact hcut.symm

theorem dropWhile_eq_filter (hturn : l.Pairwise fun a b => p b = true → p a = true) :
    l.dropWhile p = l.filter fun a => !p a := by
  have hnone : (l.takeWhile p).filter (fun a => !p a) = [] := by
    rw [List.filter_eq_nil_iff]
    intro a ha
    simpa using List.mem_takeWhile_imp ha
  have hall : (l.dropWhile p).filter (fun a => !p a) = l.dropWhile p := by
    rw [List.filter_eq_self]
    intro a ha
    simpa using not_of_mem_dropWhile hturn ha
  conv_rhs => rw [← List.takeWhile_append_dropWhile (p := p) (l := l)]
  rw [List.filter_append, hnone, hall, List.nil_append]

theorem takeWhile_congr (h : ∀ a ∈ l, p a = q a) : l.takeWhile p = l.takeWhile q := by
  induction l with
  | nil => rfl
  | cons a rest ih =>
      have hrest := ih fun b hb => h b (List.mem_cons_of_mem a hb)
      simp only [List.takeWhile_cons, h a List.mem_cons_self, hrest]

theorem dropWhile_congr (h : ∀ a ∈ l, p a = q a) : l.dropWhile p = l.dropWhile q := by
  induction l with
  | nil => rfl
  | cons a rest ih =>
      have hrest := ih fun b hb => h b (List.mem_cons_of_mem a hb)
      simp only [List.dropWhile_cons, h a List.mem_cons_self, hrest]

theorem take_length_takeWhile : l.take (l.takeWhile p).length = l.takeWhile p :=
  (List.prefix_iff_eq_take.mp (List.takeWhile_prefix _)).symm

theorem drop_length_takeWhile : l.drop (l.takeWhile p).length = l.dropWhile p := by
  have hsplit := List.take_append_drop (l.takeWhile p).length l
  rw [take_length_takeWhile] at hsplit
  exact List.append_cancel_left (hsplit.trans List.takeWhile_append_dropWhile.symm)

/-- A weaker predicate goes on where a stronger one turns. -/
theorem takeWhile_of_imp (hpq : ∀ a, p a = true → q a = true) :
    l.takeWhile q = l.takeWhile p ++ (l.dropWhile p).takeWhile q := by
  induction l with
  | nil => rfl
  | cons a rest ih =>
      by_cases hp : p a = true
      · simp [hp, hpq a hp, ih]
      · simp [hp]

theorem dropWhile_of_imp (hpq : ∀ a, p a = true → q a = true) :
    l.dropWhile q = (l.dropWhile p).dropWhile q := by
  induction l with
  | nil => rfl
  | cons a rest ih =>
      by_cases hp : p a = true
      · simp [hp, hpq a hp, ih]
      · simp [hp]

/-- The same for a filter, if the stronger predicate never turns back. -/
theorem filter_of_imp (hpq : ∀ a, p a = true → q a = true)
    (hturn : l.Pairwise fun a b => p b = true → p a = true) :
    l.filter q = l.filter p ++ l.filter fun a => q a && !p a := by
  have hbefore : (l.takeWhile p).filter q = l.takeWhile p :=
    List.filter_eq_self.mpr fun a ha => hpq a (List.mem_takeWhile_imp ha)
  rw [← List.filter_filter, ← takeWhile_eq_filter hturn, ← dropWhile_eq_filter hturn]
  conv_lhs => rw [← List.takeWhile_append_dropWhile (p := p) (l := l)]
  rw [List.filter_append, hbefore]

end Chiptune
