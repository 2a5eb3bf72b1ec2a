import Descent.Value.Basic

/-!
# Identity of values

Two values are identical when they are the same datum. This is finer than what they stand for: the
number one is not identical to the truth value, and the order of entries counts. Main statement:
identity can be decided.
-/

namespace Descent.Value

mutual

/-- Whether two values are the same datum, kind for kind and in the same order. -/
def identical : Value → Value → Bool
  | .null, .null => true
  | .bool b, .bool c => b = c
  | .int m, .int n => m = n
  | .str s, .str t => s = t
  | .list vs, .list ws => identicalItems vs ws
  | .tuple vs, .tuple ws => identicalItems vs ws
  | .dict vs, .dict ws => identicalEntries vs ws
  | _, _ => false

def identicalItems : List Value → List Value → Bool
  | [], [] => true
  | v :: vs, w :: ws => identical v w && identicalItems vs ws
  | _, _ => false

def identicalEntries : List (Value × Value) → List (Value × Value) → Bool
  | [], [] => true
  | (k, v) :: vs, (l, w) :: ws => identical k l && identical v w && identicalEntries vs ws
  | _, _ => false

end

mutual

theorem eq_of_identical : ∀ {v w : Value}, identical v w = true → v = w
  | .null, w, h => by cases w <;> simp_all [identical]
  | .bool b, w, h => by cases w <;> simp_all [identical]
  | .int n, w, h => by cases w <;> simp_all [identical]
  | .str s, w, h => by cases w <;> simp_all [identical]
  | .list vs, .list ws, h =>
    congrArg Value.list (eq_of_identicalItems (by simpa [identical] using h))
  | .tuple vs, .tuple ws, h =>
    congrArg Value.tuple (eq_of_identicalItems (by simpa [identical] using h))
  | .dict vs, .dict ws, h =>
    congrArg Value.dict (eq_of_identicalEntries (by simpa [identical] using h))

theorem eq_of_identicalItems : ∀ {vs ws : List Value}, identicalItems vs ws = true → vs = ws
  | [], [], _ => rfl
  | v :: vs, w :: ws, h => by
    simp only [identicalItems, Bool.and_eq_true] at h
    rw [eq_of_identical h.1, eq_of_identicalItems h.2]

theorem eq_of_identicalEntries :
    ∀ {vs ws : List (Value × Value)}, identicalEntries vs ws = true → vs = ws
  | [], [], _ => rfl
  | (k, v) :: vs, (l, w) :: ws, h => by
    simp only [identicalEntries, Bool.and_eq_true] at h
    rw [eq_of_identical h.1.1, eq_of_identical h.1.2, eq_of_identicalEntries h.2]

end

mutual

theorem identical_self : ∀ v : Value, identical v v = true
  | .null => rfl
  | .bool b => by simp [identical]
  | .int n => by simp [identical]
  | .str s => by simp [identical]
  | .list vs => by simp [identical, identicalItems_self vs]
  | .tuple vs => by simp [identical, identicalItems_self vs]
  | .dict vs => by simp [identical, identicalEntries_self vs]

theorem identicalItems_self : ∀ vs : List Value, identicalItems vs vs = true
  | [] => rfl
  | v :: vs => by simp [identicalItems, identical_self v, identicalItems_self vs]

theorem identicalEntries_self : ∀ vs : List (Value × Value), identicalEntries vs vs = true
  | [] => rfl
  | (k, v) :: vs => by
    simp [identicalEntries, identical_self k, identical_self v, identicalEntries_self vs]

end

instance : DecidableEq Value := fun v w =>
  decidable_of_iff (identical v w = true)
    ⟨eq_of_identical, fun h => h ▸ identical_self v⟩

end Descent.Value
