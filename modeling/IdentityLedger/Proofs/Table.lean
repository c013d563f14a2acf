import IdentityLedger.Identifier
import IdentityLedger.Table
import Mathlib.Data.List.Nodup
import Mathlib.Order.Defs.Unbundled

/-!
# Tables in order

Insertion and removal keep the entries in strictly ascending order of their keys. Tables
in order are equal if every key has the same value in both.
-/
namespace IdentityLedger

namespace Table
variable {κ ν : Type} [LT κ]

def Ordered (t : Table κ ν) : Prop := t.entries.Pairwise fun a b => a.1 < b.1

theorem Ordered.empty : (empty : Table κ ν).Ordered := List.Pairwise.nil

variable [DecidableEq κ]

theorem Ordered.erase {t : Table κ ν} (h : t.Ordered) (key : κ) : (t.erase key).Ordered :=
  h.filter _

variable [DecidableLT κ]

theorem mem_insertEntry {key : κ} {value : ν} {entries : List (κ × ν)} {entry : κ × ν}
    (h : entry ∈ insertEntry key value entries) : entry = (key, value) ∨ entry ∈ entries := by
  induction entries with
  | nil => exact .inl (List.mem_singleton.mp h)
  | cons first entries ih =>
    obtain ⟨other, old⟩ := first
    rw [insertEntry] at h
    split at h
    · rcases List.mem_cons.mp h with heq | hmem
      · exact .inl heq
      · exact .inr (List.mem_cons_of_mem _ hmem)
    · split at h
      · exact List.mem_cons.mp h
      · rcases List.mem_cons.mp h with heq | hmem
        · exact .inr (heq ▸ List.mem_cons_self)
        · rcases ih hmem with heq | hmem
          · exact .inl heq
          · exact .inr (List.mem_cons_of_mem _ hmem)

variable [IsStrictTotalOrder κ (· < ·)]

theorem Ordered.insert {t : Table κ ν} (h : t.Ordered) (key : κ) (value : ν) :
    (t.insert key value).Ordered := by
  obtain ⟨entries⟩ := t
  change (insertEntry key value entries).Pairwise _
  change entries.Pairwise _ at h
  induction entries with
  | nil => exact List.pairwise_singleton _ _
  | cons first entries ih =>
    obtain ⟨other, old⟩ := first
    rw [List.pairwise_cons] at h
    rw [insertEntry]
    by_cases heq : key = other
    · rw [if_pos heq]
      subst heq
      exact List.pairwise_cons.mpr h
    · rw [if_neg heq]
      by_cases hlt : key < other
      · rw [if_pos hlt, List.pairwise_cons, List.forall_mem_cons]
        exact ⟨⟨hlt, fun entry hmem => IsTrans.trans _ _ _ hlt (h.1 entry hmem)⟩,
          List.pairwise_cons.mpr h⟩
      · rw [if_neg hlt, List.pairwise_cons]
        refine ⟨fun entry hmem => ?_, ih h.2⟩
        rcases mem_insertEntry hmem with rfl | hmem
        · by_contra hge
          exact heq (Std.Trichotomous.trichotomous _ _ hlt hge)
        · exact h.1 entry hmem

omit [DecidableEq κ] [DecidableLT κ] in
theorem Ordered.nodup {t : Table κ ν} (h : t.Ordered) : t.entries.Nodup := by
  refine h.imp ?_
  rintro a b hlt rfl
  exact irrefl_of (· < ·) a.1 hlt

omit [DecidableLT κ] in
theorem Ordered.get?_eq_some {t : Table κ ν} (h : t.Ordered) {key : κ} {value : ν} :
    t.get? key = some value ↔ (key, value) ∈ t.entries := by
  obtain ⟨entries⟩ := t
  change entries.Pairwise _ at h
  induction entries with
  | nil => simp [get?]
  | cons first entries ih =>
    obtain ⟨other, old⟩ := first
    rw [List.pairwise_cons] at h
    have hrest : get? ⟨entries⟩ key = some value ↔ (key, value) ∈ entries := ih h.2
    rw [get?] at hrest ⊢
    rw [List.find?_cons, List.mem_cons]
    by_cases heq : other = key
    · subst heq
      have hnot : (other, value) ∉ entries := fun hmem => irrefl_of (· < ·) other (h.1 _ hmem)
      simp [hnot, eq_comm]
    · simp [heq, Ne.symm heq, hrest]

omit [DecidableLT κ] in
theorem Ordered.ext {t t' : Table κ ν} (h : t.Ordered) (h' : t'.Ordered)
    (hget : ∀ key, t.get? key = t'.get? key) : t = t' := by
  have hmem (entry : κ × ν) : entry ∈ t.entries ↔ entry ∈ t'.entries := by
    obtain ⟨key, value⟩ := entry
    rw [← h.get?_eq_some, hget, h'.get?_eq_some]
  have hperm := (List.perm_ext_iff_of_nodup h.nodup h'.nodup).mpr hmem
  have hentries : t.entries = t'.entries := by
    refine hperm.eq_of_pairwise ?_ h h'
    intro a b _ _ hab hba
    exact absurd (IsTrans.trans _ _ _ hab hba) (irrefl_of (· < ·) a.1)
  obtain ⟨entries⟩ := t
  exact congrArg Table.mk hentries

end Table

namespace AggregateId

theorem lt_iff {a b : AggregateId} : a < b ↔ a.uuid.bits.toNat < b.uuid.bits.toNat := Iff.rfl

instance : IsStrictTotalOrder AggregateId (· < ·) where
  irrefl a := Nat.lt_irrefl _
  trans a b c hab hbc := lt_iff.mpr (Nat.lt_trans (lt_iff.mp hab) (lt_iff.mp hbc))
  trichotomous a b hab hba := by
    rw [lt_iff] at hab hba
    have hbits := BitVec.eq_of_toNat_eq (Nat.le_antisymm (Nat.le_of_not_lt hba) (Nat.le_of_not_lt hab))
    obtain ⟨⟨bits⟩⟩ := a
    exact congrArg (fun bits => AggregateId.mk ⟨bits⟩) hbits

end AggregateId

end IdentityLedger
