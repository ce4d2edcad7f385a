/-
  Sorting by a key, and the loop that checks each value of a list against the values before it.
-/
import CryptoIntelligence.Lib.Checked

namespace CryptoIntelligence.Lib

variable {α κ ε : Type}

section Sorting

variable [LinearOrder κ] (key : α → κ)

/-- `sort_by_key` -/
def sortByKey (values : List α) : List α := values.insertionSort fun a b => key a ≤ key b

instance keyTotal : Std.Total fun a b : α => key a ≤ key b := ⟨fun a b => le_total (key a) (key b)⟩

instance keyTrans : IsTrans α fun a b => key a ≤ key b := ⟨fun _ _ _ => le_trans⟩

theorem sortByKey_perm (values : List α) : (sortByKey key values).Perm values :=
  List.perm_insertionSort _ values

theorem pairwise_sortByKey (values : List α) :
    (sortByKey key values).Pairwise fun a b => key a ≤ key b :=
  List.pairwise_insertionSort _ values

variable {key}

/-- The sort restores a strictly ordered list from any arrangement of it. -/
theorem sortByKey_eq_of_perm {values stream : List α} (hperm : values.Perm stream)
    (hstrict : stream.Pairwise fun a b => key a < key b) : sortByKey key values = stream := by
  have hnodup : (stream.map key).Nodup := List.pairwise_map.mpr (hstrict.imp fun h => h.ne)
  have hsorted := (sortByKey_perm key values).trans hperm
  refine List.Perm.eq_of_pairwise (fun a b ha hb hab hba => ?_) (pairwise_sortByKey key values)
    (hstrict.imp fun h => h.le) hsorted
  exact List.inj_on_of_nodup_map hnodup (hsorted.mem_iff.mp ha) hb (le_antisymm hab hba)

/-- In a list ordered by a key, what holds of a value and each later one holds where the keys are
    strictly ordered. -/
theorem forall_of_pairwise_key {values : List α} {related : α → α → Prop}
    (h : values.Pairwise fun a b => key a ≤ key b ∧ related a b) {a b : α} (ha : a ∈ values)
    (hb : b ∈ values) (hlt : key a < key b) : related a b := by
  have hboth : values.Pairwise fun a b =>
      (key a < key b → related a b) ∧ (key b < key a → related b a) :=
    h.imp fun ⟨hle, hrelated⟩ => ⟨fun _ => hrelated, fun hlt => absurd hlt hle.not_gt⟩
  have hsymm : Std.Symm fun a b =>
      (key a < key b → related a b) ∧ (key b < key a → related b a) := ⟨fun _ _ h => ⟨h.2, h.1⟩⟩
  have hne : a ≠ b := fun heq => hlt.ne (congrArg key heq)
  exact (hboth.forall ha hb hne).1 hlt

end Sorting

/-- Checks the values in order, each against those before it, the latest first. -/
def checkInOrder (check : List α → α → Except ε Unit) : List α → List α → Except ε Unit
  | _, [] => .ok ()
  | seen, value :: values => do
    check seen value
    checkInOrder check (value :: seen) values

section InOrder

variable {check : List α → α → Except ε Unit} {own : α → Prop} {apart next : α → α → Prop}

theorem checkInOrder_seen (hcheck : ∀ seen a, check seen a = .ok () ↔
      own a ∧ (∀ b ∈ seen, apart b a) ∧ ∀ b ∈ seen.head?, next b a) (seen values : List α) :
    checkInOrder check seen values = .ok () ↔
      (∀ a ∈ values, own a) ∧ (∀ b ∈ seen, ∀ a ∈ values, apart b a) ∧ values.Pairwise apart
        ∧ (seen.head?.toList ++ values).IsChain next := by
  induction values generalizing seen with
  | nil => cases seen <;> simp [checkInOrder]
  | cons a values ih =>
    simp only [checkInOrder, bind_eq_ok, exists_const, hcheck, ih]
    cases seen <;> simp [List.isChain_cons_cons, forall_and] <;> tauto

/-- A check of each value by itself, against every earlier value and against the one before it. -/
theorem checkInOrder_eq_ok (hcheck : ∀ seen a, check seen a = .ok () ↔
      own a ∧ (∀ b ∈ seen, apart b a) ∧ ∀ b ∈ seen.head?, next b a) {values : List α} :
    checkInOrder check [] values = .ok () ↔
      (∀ a ∈ values, own a) ∧ values.Pairwise apart ∧ values.IsChain next := by
  rw [checkInOrder_seen hcheck]
  simp

end InOrder

end CryptoIntelligence.Lib
