import Mathlib

/-!
Stable sorting by a key.

Main statement: a list in the order of its keys is the stable sort of another list if for every key
it has the same entries in the same order.
-/
namespace Chiptune

variable {α β κ : Type} [LinearOrder κ] {key : α → κ}

def Ascending (key : α → κ) (entries : List α) : Prop :=
  entries.Pairwise fun earlier later => key earlier ≤ key later

def ofKey (key : α → κ) (value : κ) (entries : List α) : List α :=
  entries.filter fun entry => decide (key entry = value)

/-- Sorts entries by their keys; entries of one key keep their order. -/
def sortBy (key : α → κ) (entries : List α) : List α :=
  entries.mergeSort fun earlier later => decide (key earlier ≤ key later)

theorem mem_ofKey {value : κ} {entries : List α} {entry : α} :
    entry ∈ ofKey key value entries ↔ entry ∈ entries ∧ key entry = value := by
  simp [ofKey]

theorem ofKey_append (value : κ) (first second : List α) :
    ofKey key value (first ++ second) = ofKey key value first ++ ofKey key value second :=
  List.filter_append _ _

theorem ofKey_eq_nil {value : κ} {entries : List α} (h : ∀ entry ∈ entries, key entry ≠ value) :
    ofKey key value entries = [] :=
  List.filter_eq_nil_iff.mpr fun entry hentry => by simpa using h entry hentry

theorem ofKey_eq_self {value : κ} {entries : List α} (h : ∀ entry ∈ entries, key entry = value) :
    ofKey key value entries = entries :=
  List.filter_eq_self.mpr fun entry hentry => by simpa using h entry hentry

/-- What has the same entries of every key has an entry if the other has it. -/
theorem mem_of_ofKey {first second : List α}
    (h : ∀ value, ofKey key value first = ofKey key value second) {entry : α}
    (hentry : entry ∈ first) : entry ∈ second := by
  have hkey : entry ∈ ofKey key (key entry) first := mem_ofKey.mpr ⟨hentry, rfl⟩
  rw [h] at hkey
  exact (mem_ofKey.mp hkey).1

theorem Ascending.key_head_le {head : α} {tail : List α} (h : Ascending key (head :: tail))
    {entry : α} (hentry : entry ∈ head :: tail) : key head ≤ key entry := by
  rcases List.mem_cons.mp hentry with rfl | htail
  · exact le_rfl
  · exact List.rel_of_pairwise_cons h htail

theorem Ascending.eq_of_ofKey {first second : List α} (hfirst : Ascending key first)
    (hsecond : Ascending key second)
    (h : ∀ value, ofKey key value first = ofKey key value second) : first = second := by
  induction first generalizing second with
  | nil =>
      refine (List.eq_nil_iff_forall_not_mem.mpr fun entry hentry => ?_).symm
      exact List.not_mem_nil (mem_of_ofKey (fun value => (h value).symm) hentry)
  | cons a later ih =>
      cases second with
      | nil => exact absurd (mem_of_ofKey h List.mem_cons_self) List.not_mem_nil
      | cons b rest =>
          have hkey : key a = key b := le_antisymm
            (hfirst.key_head_le (mem_of_ofKey (fun value => (h value).symm) List.mem_cons_self))
            (hsecond.key_head_le (mem_of_ofKey h List.mem_cons_self))
          have hhead : a = b := by
            have hentries := h (key a)
            simp only [ofKey, List.filter_cons, hkey, decide_true, if_true] at hentries
            exact (List.cons.inj hentries).1
          subst hhead
          congr 1
          refine ih hfirst.of_cons hsecond.of_cons fun value => ?_
          have hentries := h value
          simp only [ofKey, List.filter_cons] at hentries
          split at hentries
          · exact (List.cons.inj hentries).2
          · exact hentries

theorem ascending_iff {entries : List α} : Ascending key entries ↔
    entries.Pairwise fun earlier later => decide (key earlier ≤ key later) = true := by
  simp [Ascending]

theorem decide_le_trans (a b c : α) (hab : decide (key a ≤ key b) = true)
    (hbc : decide (key b ≤ key c) = true) : decide (key a ≤ key c) = true :=
  decide_eq_true ((of_decide_eq_true hab).trans (of_decide_eq_true hbc))

theorem decide_le_total (a b : α) :
    (decide (key a ≤ key b) || decide (key b ≤ key a)) = true := by
  simpa using le_total (key a) (key b)

theorem perm_sortBy (key : α → κ) (entries : List α) : (sortBy key entries).Perm entries :=
  List.mergeSort_perm _ _

theorem ascending_sortBy (key : α → κ) (entries : List α) : Ascending key (sortBy key entries) :=
  ascending_iff.mpr (List.pairwise_mergeSort decide_le_trans decide_le_total entries)

theorem sortBy_of_ascending {entries : List α} (h : Ascending key entries) :
    sortBy key entries = entries :=
  List.mergeSort_of_pairwise (ascending_iff.mp h)

/-- Sorting leaves alone any selection of the entries that is in order already. -/
theorem filter_sortBy_of_ascending {entries : List α} {p : α → Bool}
    (h : Ascending key (entries.filter p)) : (sortBy key entries).filter p = entries.filter p := by
  have hsublist : (entries.filter p).Sublist (sortBy key entries) :=
    List.sublist_mergeSort decide_le_trans decide_le_total (ascending_iff.mp h) List.filter_sublist
  have hkept := hsublist.filter p
  simp only [List.filter_filter, Bool.and_self] at hkept
  have hlength := ((perm_sortBy key entries).filter p).length_eq
  exact (hkept.eq_of_length hlength.symm).symm

theorem ofKey_sortBy (key : α → κ) (value : κ) (entries : List α) :
    ofKey key value (sortBy key entries) = ofKey key value entries := by
  have hsame : Ascending key (ofKey key value entries) := by
    refine List.pairwise_of_forall_mem_list fun first hfirst second hsecond => ?_
    rw [(mem_ofKey.mp hfirst).2, (mem_ofKey.mp hsecond).2]
  exact filter_sortBy_of_ascending hsame

/-- The stable sort is told by its order and by the order of the entries of every key. -/
theorem Ascending.eq_sortBy {sorted entries : List α} (hsorted : Ascending key sorted)
    (h : ∀ value, ofKey key value sorted = ofKey key value entries) : sorted = sortBy key entries :=
  hsorted.eq_of_ofKey (ascending_sortBy key entries) fun value => by rw [h, ofKey_sortBy]

/-- A selection may be sorted before or after it is made. -/
theorem filter_sortBy (entries : List α) (p : α → Bool) :
    (sortBy key entries).filter p = sortBy key (entries.filter p) := by
  refine Ascending.eq_sortBy ((ascending_sortBy key entries).filter p) fun value => ?_
  have hsorted := ofKey_sortBy key value entries
  simp only [ofKey] at hsorted ⊢
  rw [List.filter_comm, hsorted, List.filter_comm]

/-- What has been sorted already may be sorted again with what follows. -/
theorem sortBy_sortBy_append (first second : List α) :
    sortBy key (sortBy key first ++ second) = sortBy key (first ++ second) := by
  refine (ascending_sortBy key _).eq_sortBy fun value => ?_
  rw [ofKey_sortBy, ofKey_append, ofKey_append, ofKey_sortBy]

/-- What is in order and comes before everything else stays in front. -/
theorem sortBy_append_of_le {first second : List α} (hfirst : Ascending key first)
    (hle : ∀ earlier ∈ first, ∀ later ∈ second, key earlier ≤ key later) :
    sortBy key (first ++ second) = first ++ sortBy key second := by
  refine (Ascending.eq_sortBy ?_ fun value => ?_).symm
  · refine List.pairwise_append.mpr ⟨hfirst, ascending_sortBy key second, ?_⟩
    intro earlier hearlier later hlater
    exact hle earlier hearlier later ((perm_sortBy key second).mem_iff.mp hlater)
  · rw [ofKey_append, ofKey_append, ofKey_sortBy]

/-- Values of a function may be sorted by any key that orders them like the arguments. -/
theorem sortBy_map {ρ : Type} [LinearOrder ρ] {other : β → ρ} {f : α → β} {entries : List α}
    (h : ∀ a ∈ entries, ∀ b ∈ entries, key a ≤ key b ↔ other (f a) ≤ other (f b)) :
    sortBy other (entries.map f) = (sortBy key entries).map f :=
  (List.map_mergeSort fun a ha b hb => decide_eq_decide.mpr (h a ha b hb)).symm

end Chiptune
