/-!
The four parts of a composition and values given for each of them.
-/
namespace Chiptune

/-- A part of a composition.  Parts are always visited in this order. -/
inductive Role where
  | lead
  | harmony
  | bass
  | percussion
deriving DecidableEq, Repr

structure PerRole (α : Type) where
  lead : α
  harmony : α
  bass : α
  percussion : α
deriving BEq, Repr

namespace PerRole

variable {α β : Type}

def get (values : PerRole α) : Role → α
  | .lead => values.lead
  | .harmony => values.harmony
  | .bass => values.bass
  | .percussion => values.percussion

def ofRole (value : Role → α) : PerRole α :=
  ⟨value .lead, value .harmony, value .bass, value .percussion⟩

def replicate (value : α) : PerRole α := ofRole fun _ => value

@[inline] def map (f : α → β) (values : PerRole α) : PerRole β :=
  ⟨f values.lead, f values.harmony, f values.bass, f values.percussion⟩

def total (counts : PerRole Nat) : Nat :=
  counts.lead + counts.harmony + counts.bass + counts.percussion

def modify (role : Role) (f : α → α) (values : PerRole α) : PerRole α :=
  match role with
  | .lead => { values with lead := f values.lead }
  | .harmony => { values with harmony := f values.harmony }
  | .bass => { values with bass := f values.bass }
  | .percussion => { values with percussion := f values.percussion }

def toList (values : PerRole α) : List α :=
  [values.lead, values.harmony, values.bass, values.percussion]

@[simp] theorem get_ofRole (value : Role → α) (role : Role) :
    (ofRole value).get role = value role := by
  cases role <;> rfl

@[simp] theorem get_replicate (value : α) (role : Role) : (replicate value).get role = value := by
  simp [replicate]

@[simp] theorem get_map (f : α → β) (values : PerRole α) (role : Role) :
    (values.map f).get role = f (values.get role) := by
  cases role <;> rfl

@[simp] theorem get_modify_self (values : PerRole α) (role : Role) (f : α → α) :
    (values.modify role f).get role = f (values.get role) := by
  cases role <;> rfl

theorem get_modify_of_ne (values : PerRole α) {role other : Role} (h : other ≠ role) (f : α → α) :
    (values.modify role f).get other = values.get other := by
  cases role <;> cases other <;> simp_all [modify, get]

theorem total_eq_zero {counts : PerRole Nat} (h : ∀ role, counts.get role = 0) :
    counts.total = 0 := by
  rw [total, show counts.lead = 0 from h .lead, show counts.harmony = 0 from h .harmony,
    show counts.bass = 0 from h .bass, show counts.percussion = 0 from h .percussion]

@[simp] theorem mem_toList {values : PerRole α} {value : α} :
    value ∈ values.toList ↔ ∃ role, value = values.get role := by
  constructor
  · intro h
    simp only [toList, List.mem_cons, List.not_mem_nil, or_false] at h
    rcases h with h | h | h | h
    · exact ⟨.lead, h⟩
    · exact ⟨.harmony, h⟩
    · exact ⟨.bass, h⟩
    · exact ⟨.percussion, h⟩
  · rintro ⟨role, rfl⟩
    cases role <;> simp [toList, get]

end PerRole

end Chiptune
