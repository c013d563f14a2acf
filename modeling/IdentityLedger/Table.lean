/-!
# Tables

A finite map kept in ascending order of its keys.
-/
namespace IdentityLedger

structure Table (κ ν : Type) where
  entries : List (κ × ν)

namespace Table
variable {κ ν : Type}

def empty : Table κ ν := ⟨[]⟩

def values (t : Table κ ν) : List ν := t.entries.map Prod.snd

variable [DecidableEq κ]

def get? (t : Table κ ν) (key : κ) : Option ν :=
  (t.entries.find? fun entry => entry.1 = key).map Prod.snd

def erase (t : Table κ ν) (key : κ) : Table κ ν :=
  ⟨t.entries.filter fun entry => entry.1 ≠ key⟩

def insertEntry [LT κ] [DecidableLT κ] (key : κ) (value : ν) : List (κ × ν) → List (κ × ν)
  | [] => [(key, value)]
  | (other, old) :: entries =>
    if key = other then (key, value) :: entries
    else if key < other then (key, value) :: (other, old) :: entries
    else (other, old) :: insertEntry key value entries

def insert [LT κ] [DecidableLT κ] (t : Table κ ν) (key : κ) (value : ν) : Table κ ν :=
  ⟨insertEntry key value t.entries⟩

@[simp] theorem get?_empty (key : κ) : (empty : Table κ ν).get? key = none := rfl

theorem get?_insert [LT κ] [DecidableLT κ] (t : Table κ ν) (key other : κ) (value : ν) :
    (t.insert key value).get? other = if other = key then some value else t.get? other := by
  simp only [get?, insert]
  induction t.entries with
  | nil => by_cases h : other = key <;> simp [insertEntry, h, eq_comm]
  | cons entry entries ih =>
    obtain ⟨k, v⟩ := entry
    simp only [insertEntry]
    split
    · rename_i hk
      subst hk
      by_cases h : other = key <;> simp [h, eq_comm]
    · split
      · by_cases h : other = key
        · simp [h]
        · simp [h, Ne.symm h]
      · rename_i hk _
        by_cases hk' : k = other
        · subst hk'
          simp [Ne.symm hk]
        · simpa [List.find?_cons, hk'] using ih

theorem get?_erase (t : Table κ ν) (key other : κ) :
    (t.erase key).get? other = if other = key then none else t.get? other := by
  simp only [get?, erase]
  induction t.entries with
  | nil => simp
  | cons entry entries ih =>
    obtain ⟨k, v⟩ := entry
    by_cases hk : k = key
    · subst hk
      by_cases h : other = k
      · subst h
        simp
      · simp only [ne_eq, not_true_eq_false, decide_false, List.filter_cons]
        simpa [h, Ne.symm h] using ih
    · by_cases hk' : k = other
      · subst hk'
        simp [hk]
      · simpa [List.filter_cons, List.find?_cons, hk, hk'] using ih

end Table

end IdentityLedger
